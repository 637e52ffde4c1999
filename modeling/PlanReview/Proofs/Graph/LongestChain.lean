import Mathlib.Data.Set.Card
import Mathlib.Order.Bounds.Basic
import PlanReview.Proofs.Graph.Levels

/-!
# Levels as lengths of chains

Where no id occurs twice, an instruction is lost (`IsLost`) if some chain of dependencies from it
reaches a cycle or an id that no instruction has. The passes settle exactly the others. Levels fall
along dependencies, so nothing that is settled leads to a cycle (`Sound.not_isLost`). From an id that
is not lost nothing endless starts (`acc_of_not_isLost`), so it is settled where the passes stop. A
settled level is the length of the longest chain that starts there (`Sound.isGreatest`).

So the level of an id is said without the passes (`IsLevel`), and in whatever order the instructions
come it is the same (`levels_eq_longest_chain`).
-/

namespace PlanReview.Graph

open Relation

variable {instructions : List Instruction} {a b id : String} {n : Nat}

/-- Some chain of dependencies from the id reaches a cycle, or an id that no instruction has. -/
def IsLost (instructions : List Instruction) (id : String) : Prop :=
  ∃ target, ReflTransGen (DependsOn instructions) id target ∧
    (target ∉ ids instructions ∨ TransGen (DependsOn instructions) target target)

/-- A chain of `n` dependencies starts at the id. -/
def HasChain (instructions : List Instruction) (id : String) (n : Nat) : Prop :=
  ∃ chain : List String, chain.length = n ∧ (id :: chain).IsChain (DependsOn instructions)

/-- The level of an id : zero if it is lost, and else the length of the longest chain of
dependencies that starts there. -/
structure IsLevel (instructions : List Instruction) (id : String) (n : Nat) : Prop where
  lost : IsLost instructions id → n = 0
  longest : ¬IsLost instructions id → IsGreatest { k | HasChain instructions id k } n

theorem IsLevel.unique {m : Nat} (hm : IsLevel instructions id m)
    (hn : IsLevel instructions id n) : m = n := by
  by_cases h : IsLost instructions id
  · rw [hm.lost h, hn.lost h]
  · exact (hm.longest h).unique (hn.longest h)

/-- Where no id occurs twice, an id depends on what its instruction depends on. -/
theorem dependsOn_iff_of_nodup (hids : (ids instructions).Nodup) :
    DependsOn instructions a b ↔ ∃ i ∈ instructions, i.id = a ∧ b ∈ i.dependencies := by
  rw [dependsOn_iff]
  constructor
  · rintro ⟨front, i, back, rfl, hid, -, hb⟩
    exact ⟨i, by simp, hid, hb⟩
  · rintro ⟨i, hi, rfl, hb⟩
    obtain ⟨front, back, rfl⟩ := List.append_of_mem hi
    refine ⟨front, i, back, rfl, rfl, fun j hj hid => ?_, hb⟩
    simp only [ids, List.map_append, List.map_cons, List.nodup_append, List.nodup_cons] at hids
    exact hids.2.1.1 (hid ▸ List.mem_map_of_mem hj)

/-! ## What is not lost -/

/-- Nothing endless starts where it leads to finitely many places, none of which leads back to
itself : each step leaves fewer of them. -/
theorem acc_of_finite {α : Type} {r : α → α → Prop} {a : α}
    (hfinite : { x | ReflTransGen r a x }.Finite)
    (hacyclic : ∀ x, ReflTransGen r a x → ¬TransGen r x x) : Acc (fun b a => r a b) a := by
  induction hn : { x | ReflTransGen r a x }.ncard using Nat.strongRecOn generalizing a with
  | _ n ih =>
    refine ⟨a, fun b hab => ?_⟩
    have hsub : { x | ReflTransGen r b x } ⊂ { x | ReflTransGen r a x } := by
      refine ⟨fun x hx => .head hab hx, fun hback => ?_⟩
      exact hacyclic a .refl (.head' hab (hback .refl))
    have hlt := Set.ncard_lt_ncard hsub hfinite
    exact ih _ (hn ▸ hlt) (hfinite.subset hsub.1) (fun x hx => hacyclic x (.head hab hx)) rfl

theorem acc_of_not_isLost (h : ¬IsLost instructions id) :
    Acc (fun b a => DependsOn instructions a b) id := by
  refine acc_of_finite ((List.finite_toSet (ids instructions)).subset fun x hx => ?_) ?_
  · by_contra hunknown
    exact h ⟨x, hx, .inl hunknown⟩
  · exact fun x hx hcycle => h ⟨x, hx, .inr hcycle⟩

namespace Levels

variable {levels : Levels}

theorem IsStill.isSome_of_not_isLost (h : IsStill instructions levels)
    (hid : ¬IsLost instructions id) : (levels.lookup id).isSome := by
  refine h.isSome_of_acc_of_forall (acc_of_not_isLost hid) fun x hx => ?_
  by_contra hunknown
  exact hid ⟨x, hx, .inl hunknown⟩

/-! ## What is settled -/

section Distinct

variable (hids : (ids instructions).Nodup) (h : Sound instructions levels)

include hids h

/-- What a settled id depends on is settled below it. -/
theorem Sound.exists_lt (ha : levels.lookup a = some n) (hab : DependsOn instructions a b) :
    ∃ m < n, levels.lookup b = some m := by
  obtain ⟨i, hi, hia, htops⟩ := h.settled _ (mem_of_lookup ha)
  obtain ⟨j, hj, hja, hb⟩ := (dependsOn_iff_of_nodup hids).1 hab
  obtain rfl : i = j := List.inj_on_of_nodup_map hids hi hj (hia.trans hja.symm)
  obtain ⟨m, hm, hlt⟩ := htops.above b hb
  exact ⟨m, hlt, hm⟩

/-- An id settled above zero depends on one that is settled right below it. -/
theorem Sound.exists_pred (ha : levels.lookup a = some (n + 1)) :
    ∃ b, DependsOn instructions a b ∧ levels.lookup b = some n := by
  obtain ⟨i, hi, hia, htops⟩ := h.settled _ (mem_of_lookup ha)
  obtain ⟨b, hb, hbn⟩ := htops.least (by omega)
  exact ⟨b, (dependsOn_iff_of_nodup hids).2 ⟨i, hi, hia, hb⟩, hbn⟩

theorem Sound.exists_lt_of_transGen (ha : levels.lookup a = some n)
    (hab : TransGen (DependsOn instructions) a b) : ∃ m < n, levels.lookup b = some m := by
  induction hab with
  | single hab => exact h.exists_lt hids ha hab
  | tail _ hbc ih =>
    obtain ⟨m, hlt, hb⟩ := ih
    obtain ⟨k, hlt', hc⟩ := h.exists_lt hids hb hbc
    exact ⟨k, by omega, hc⟩

theorem Sound.not_isLost (ha : levels.lookup a = some n) : ¬IsLost instructions a := by
  rintro ⟨target, hpath, htarget⟩
  obtain ⟨m, hm⟩ : ∃ m, levels.lookup target = some m := by
    rcases reflTransGen_iff_eq_or_transGen.1 hpath with rfl | hpath
    · exact ⟨n, ha⟩
    · obtain ⟨m, -, hm⟩ := h.exists_lt_of_transGen hids ha hpath
      exact ⟨m, hm⟩
  rcases htarget with hunknown | hcycle
  · exact hunknown (h.keys_subset (mem_keys_iff.2 (by simp [hm])))
  · obtain ⟨k, hlt, hk⟩ := h.exists_lt_of_transGen hids hm hcycle
    simp only [hm, Option.some.injEq] at hk
    omega

theorem Sound.hasChain (ha : levels.lookup a = some n) : HasChain instructions a n := by
  induction n generalizing a with
  | zero => exact ⟨[], rfl, by simp⟩
  | succ n ih =>
    obtain ⟨b, hab, hb⟩ := h.exists_pred hids ha
    obtain ⟨chain, hlength, hchain⟩ := ih hb
    exact ⟨b :: chain, by simp [hlength], by simp [hab, hchain]⟩

/-- Each step of a chain goes down at least one level. -/
theorem Sound.length_le_of_isChain {chain : List String} (ha : levels.lookup a = some n)
    (hchain : (a :: chain).IsChain (DependsOn instructions)) : chain.length ≤ n := by
  induction chain generalizing a n with
  | nil => simp
  | cons b rest ih =>
    obtain ⟨hab, hrest⟩ := List.isChain_cons_cons.1 hchain
    obtain ⟨m, hlt, hb⟩ := h.exists_lt hids ha hab
    have := ih hb hrest
    simp only [List.length_cons]
    omega

theorem Sound.isGreatest (ha : levels.lookup a = some n) :
    IsGreatest { k | HasChain instructions a k } n := by
  refine ⟨h.hasChain hids ha, ?_⟩
  rintro k ⟨chain, rfl, hchain⟩
  exact h.length_le_of_isChain hids ha hchain

end Distinct

end Levels

/-! ## Every level -/

theorem exists_isLevel (hids : (ids instructions).Nodup) (hid : id ∈ ids instructions) :
    ∃ n, (levels instructions).lookup id = some n ∧ IsLevel instructions id n := by
  have hsound := sound_settledLevels instructions
  have hlookup := Levels.lookup_complete instructions (settledLevels instructions) id
  cases hl : (settledLevels instructions).lookup id with
  | some n =>
    refine ⟨n, by rw [levels, hlookup, hl]; rfl, ?_, fun _ => hsound.isGreatest hids hl⟩
    exact fun hlost => (hsound.not_isLost hids hl hlost).elim
  | none =>
    -- What the passes leave unsettled is lost, and rightly put at zero.
    refine ⟨0, by rw [levels, hlookup, hl]; simp [hid], fun _ => rfl, fun hsafe => ?_⟩
    have := (isStill_settledLevels instructions).isSome_of_not_isLost hsafe
    simp [hl] at this

section Order

variable {others : List Instruction} (hperm : instructions.Perm others)

include hperm

theorem mem_ids_iff_of_perm : id ∈ ids instructions ↔ id ∈ ids others :=
  (hperm.map _).mem_iff

theorem nodup_ids_of_perm (hids : (ids instructions).Nodup) : (ids others).Nodup :=
  (hperm.map _).nodup hids

theorem dependsOn_eq_of_perm (hids : (ids instructions).Nodup) :
    DependsOn instructions = DependsOn others := by
  ext a b
  simp only [dependsOn_iff_of_nodup hids, dependsOn_iff_of_nodup (nodup_ids_of_perm hperm hids),
    hperm.mem_iff]

theorem isLevel_of_perm (hids : (ids instructions).Nodup) (h : IsLevel others id n) :
    IsLevel instructions id n := by
  have hlost : IsLost instructions id ↔ IsLost others id := by
    simp only [IsLost, dependsOn_eq_of_perm hperm hids, mem_ids_iff_of_perm hperm]
  refine ⟨fun hid => h.lost (hlost.1 hid), fun hid => ?_⟩
  simpa only [HasChain, dependsOn_eq_of_perm hperm hids] using h.longest (mt hlost.2 hid)

end Order

/-- Where no id occurs twice, the passes end, every id gets its level, and the order of the
instructions does not matter. -/
theorem levels_eq_longest_chain (hids : (ids instructions).Nodup) :
    (∃ n ≤ instructions.length, ∃ settled : Levels,
        settled = (Levels.pass instructions)^[n] (Levels.roots instructions) ∧
          settled.pass instructions = settled ∧
          levels instructions = settled.complete instructions) ∧
      (∀ id ∈ ids instructions,
        ∃ n, (levels instructions).lookup id = some n ∧ IsLevel instructions id n) ∧
      ∀ others, instructions.Perm others →
        ∀ id, (levels others).lookup id = (levels instructions).lookup id := by
  refine ⟨?_, fun id hid => exists_isLevel hids hid, fun others hperm id => ?_⟩
  · obtain ⟨n, hn, heq⟩ := Levels.exists_passes_eq_iterate instructions instructions.length
      (Levels.roots instructions)
    exact ⟨n, hn, _, heq, (isStill_settledLevels instructions).pass_eq, rfl⟩
  · -- A level is decided by the graph, which the order leaves alone; without an id there is none.
    by_cases hid : id ∈ ids instructions
    · have hid' := (mem_ids_iff_of_perm hperm).1 hid
      obtain ⟨n, hn, hlevel⟩ := exists_isLevel hids hid
      obtain ⟨m, hm, hlevel'⟩ := exists_isLevel (nodup_ids_of_perm hperm hids) hid'
      rw [hm, hn, (isLevel_of_perm hperm hids hlevel').unique hlevel]
    · have hid' := mt (mem_ids_iff_of_perm hperm).2 hid
      rw [← isSome_lookup_levels_iff, Option.not_isSome_iff_eq_none] at hid hid'
      rw [hid, hid']

/-- Two ways lead from the top to the base, a loop lies beside them, and one instruction depends on
something that is missing. -/
def tangled : List Instruction :=
  [{ id := "top", op := .editCode, dependencies := ["left", "base"] },
    { id := "loop", op := .defineTask, dependencies := ["base", "loop"] },
    { id := "left", op := .readFiles, dependencies := ["base"] },
    { id := "stray", op := .runTest, dependencies := ["left", "gone"] },
    { id := "after", op := .runTest, dependencies := ["top", "loop"] },
    { id := "base", op := .searchCode }]

/-- A lost instruction is at zero, however deep the rest of what it depends on. -/
theorem levels_of_tangled : (ids tangled).Nodup ∧
    IsGreatest { k | HasChain tangled "top" k } 2 ∧ IsLost tangled "after" ∧
      (levels tangled.reverse).lookup "top" = some 2 ∧
      (levels tangled.reverse).lookup "after" = some 0 := by
  have hids : (ids tangled).Nodup := by decide
  obtain ⟨-, hlevel, hperm⟩ := levels_eq_longest_chain hids
  have hreverse := hperm _ (List.reverse_perm tangled).symm
  have htop : (levels tangled).lookup "top" = some 2 := by decide
  have hafter : (levels tangled).lookup "after" = some 0 := by decide
  obtain ⟨n, hn, hgreatest⟩ := hlevel "top" (by decide)
  obtain rfl : 2 = n := Option.some.inj (htop.symm.trans hn)
  have hloop : DependsOn tangled "loop" "loop" := by decide
  refine ⟨hids, hgreatest.longest fun hlost => ?_, ?_, ?_, ?_⟩
  · simpa using hgreatest.lost hlost
  · exact ⟨"loop", .single (by decide), .inr (.single hloop)⟩
  · rw [hreverse, htop]
  · rw [hreverse, hafter]

end PlanReview.Graph
