import Mathlib.Data.List.Chain
import Mathlib.Data.List.TakeWhile
import PlanReview.Graph.Cycle

/-!
# Acyclic instruction graphs

`DependsOn` is the graph that sends every id to the dependencies of the last instruction with that
id, and a graph is `Acyclic` if no id depends on itself through any number of steps.

The search keeps two facts apart. As long as it goes on, every node that is neither still to be
entered nor on the path is accessible : nothing endless starts there (`acc_of_explore`). When it
stops, the path from the node met again on is a closed walk (`isClosedWalk_of_explore`). Together
they say that a search finds nothing exactly in an acyclic graph, and a cycle in any other
(`findCycle_decides`).
-/

namespace PlanReview.Graph

open Relation

/-- `a` depends on `b` : `b` is a dependency of the last instruction with the id `a`. -/
def DependsOn (instructions : List Instruction) (a b : String) : Prop :=
  b ∈ successors instructions a

instance (instructions : List Instruction) (a b : String) :
    Decidable (DependsOn instructions a b) :=
  inferInstanceAs (Decidable (b ∈ successors instructions a))

/-- No id depends on itself, in one step or in many. -/
def Acyclic (instructions : List Instruction) : Prop :=
  ∀ id, ¬TransGen (DependsOn instructions) id id

theorem lookup?_eq_some_iff {instructions : List Instruction} {id : String} {i : Instruction} :
    lookup? instructions id = some i ↔
      ∃ front back, instructions = front ++ i :: back ∧ i.id = id ∧ ∀ j ∈ back, j.id ≠ id := by
  simp only [lookup?, List.find?_eq_some_iff_append, beq_iff_eq, Bool.not_eq_true',
    beq_eq_false_iff_ne]
  constructor
  · rintro ⟨hid, back, front, hsplit, hback⟩
    refine ⟨front.reverse, back.reverse, ?_, hid, by simpa using hback⟩
    simpa using congrArg List.reverse hsplit
  · rintro ⟨front, back, rfl, hid, hback⟩
    exact ⟨hid, back.reverse, front.reverse, by simp, by simpa using hback⟩

/-- The last instruction with the id decides, whatever others with that id depend on. -/
theorem dependsOn_iff {instructions : List Instruction} {a b : String} :
    DependsOn instructions a b ↔ ∃ front i back, instructions = front ++ i :: back ∧
      i.id = a ∧ (∀ j ∈ back, j.id ≠ a) ∧ b ∈ i.dependencies := by
  unfold DependsOn successors
  constructor
  · intro h
    split at h
    · rename_i i hi
      obtain ⟨front, back, hsplit, hid, hback⟩ := lookup?_eq_some_iff.1 hi
      exact ⟨front, i, back, hsplit, hid, hback, h⟩
    · simp at h
  · rintro ⟨front, i, back, hsplit, hid, hback, hb⟩
    rw [lookup?_eq_some_iff.2 ⟨front, back, hsplit, hid, hback⟩]
    exact hb

/-- A walk that ends where it starts and meets no other node twice. -/
structure IsClosedWalk (next : String → List String) (walk : List String) : Prop where
  chain : walk.IsChain fun a b => b ∈ next a
  closed : ∃ a inner, walk = a :: inner ++ [a]
  nodup : walk.dropLast.Nodup

/-- Each node of a walk but the last is followed by another one. -/
theorem exists_rel_of_isChain {α : Type} {r : α → α → Prop} {last a : α} :
    ∀ {walk : List α}, (walk ++ [last]).IsChain r → a ∈ walk → ∃ b, r a b
  | [], _, ha => by simp at ha
  | x :: rest, h, ha => by
    rw [List.cons_append, List.isChain_cons] at h
    rcases List.mem_cons.1 ha with rfl | ha
    · obtain ⟨b, hb⟩ : ∃ b, (rest ++ [last]).head? = some b := by
        cases rest <;> simp
      exact ⟨b, h.1 b hb⟩
    · exact exists_rel_of_isChain h.2 ha

namespace IsClosedWalk

variable {next : String → List String} {walk : List String}

theorem two_le_length (h : IsClosedWalk next walk) : 2 ≤ walk.length := by
  obtain ⟨start, inner, rfl⟩ := h.closed
  simp

theorem head?_eq_getLast? (h : IsClosedWalk next walk) : walk.head? = walk.getLast? := by
  obtain ⟨start, inner, rfl⟩ := h.closed
  rw [List.getLast?_concat]
  rfl

/-- The last node of a closed walk is its first one, so it is followed by another one too. -/
theorem exists_next (h : IsClosedWalk next walk) {a : String} (ha : a ∈ walk) :
    ∃ b, b ∈ next a := by
  obtain ⟨start, inner, rfl⟩ := h.closed
  refine exists_rel_of_isChain h.chain ?_
  simpa [or_comm] using ha

end IsClosedWalk

/-! ## A search that finds nothing -/

section Search

variable {next : String → List String}

/-- Where a search finds nothing, nothing endless starts from the nodes it was to look at, nor
from any other that it has entered and left. -/
theorem acc_of_explore {known : List String} (hclosed : ∀ x ∈ known, ∀ y ∈ next x, y ∈ known)
    (path pending todo : List String) {rest : { r : List String // r.length ≤ todo.length }}
    (h : explore next path pending todo = .ok rest) (hpending : ∀ x ∈ pending, x ∈ known)
    (hleft : ∀ x ∈ known, x ∉ todo → x ∉ path → Acc (fun b a => b ∈ next a) x) :
    (∀ x ∈ pending, Acc (fun b a => b ∈ next a) x) ∧
      ∀ x ∈ known, x ∉ rest.1 → x ∉ path → Acc (fun b a => b ∈ next a) x := by
  fun_induction explore next path pending todo with
  | case1 path todo =>
    cases h
    exact ⟨by simp, hleft⟩
  | case2 => cases h
  | case3 => cases h
  | case4 path todo node others hmem hlt todo₁ h₁ hin todo₂ h₂ hout ih₁ ih₂ =>
    cases h
    have hnode : node ∈ known := hpending node (by simp)
    -- While its dependencies are looked at, the node itself is on the path.
    have hin' := ih₁ hin (hclosed node hnode) fun x hx hxt hxp => by
      simp only [List.mem_append, List.mem_singleton, not_or] at hxp
      exact hleft x hx (fun hx' => hxt ((List.mem_erase_of_ne hxp.2).2 hx')) hxp.1
    have hacc : Acc (fun b a => b ∈ next a) node := ⟨node, hin'.1⟩
    have hout' := ih₂ hout (fun x hx => hpending x (by simp [hx])) fun x hx hxt hxp => by
      by_cases hxn : x = node
      · exact hxn ▸ hacc
      · exact hin'.2 x hx hxt (by simp [hxp, hxn])
    refine ⟨fun x hx => ?_, hout'.2⟩
    rcases List.mem_cons.1 hx with rfl | hx
    · exact hacc
    · exact hout'.1 x hx
  | case5 => cases h
  | case6 path todo node others hmem hpath ih =>
    have hrest := ih h (fun x hx => hpending x (by simp [hx])) hleft
    refine ⟨fun x hx => ?_, hrest.2⟩
    rcases List.mem_cons.1 hx with rfl | hx
    · exact hleft x (hpending x (by simp)) hmem hpath
    · exact hrest.1 x hx

/-! ## A search that finds a cycle -/

/-- The nodes of `path` are entered one after the other and taken out of `todo`. -/
structure IsTrail (next : String → List String) (path todo : List String) : Prop where
  chain : path.IsChain fun a b => b ∈ next a
  nodup : path.Nodup
  todo_nodup : todo.Nodup
  disjoint : ∀ x ∈ path, x ∉ todo

namespace IsTrail

variable {path todo : List String} {node : String}

/-- Enter a node that the end of the trail leads to. -/
theorem enter (t : IsTrail next path todo) (hmem : node ∈ todo)
    (hnext : ∀ last ∈ path.getLast?, node ∈ next last) :
    IsTrail next (path ++ [node]) (todo.erase node) where
  chain := by
    rw [List.isChain_append]
    refine ⟨t.chain, by simp, fun last hlast b hb => ?_⟩
    obtain rfl : node = b := by simpa using hb
    exact hnext last hlast
  nodup := by
    rw [List.nodup_append]
    refine ⟨t.nodup, by simp, fun a ha b hb hab => t.disjoint a ha ?_⟩
    rwa [hab, List.mem_singleton.1 hb]
  todo_nodup := t.todo_nodup.erase node
  disjoint x hx := by
    rw [t.todo_nodup.mem_erase_iff]
    rcases List.mem_append.1 hx with hx | hx
    · exact fun hx' => t.disjoint x hx hx'.2
    · exact fun hx' => hx'.1 (List.mem_singleton.1 hx)

theorem of_sublist {todo' : List String} (t : IsTrail next path todo)
    (h : todo'.Sublist todo) : IsTrail next path todo' where
  chain := t.chain
  nodup := t.nodup
  todo_nodup := t.todo_nodup.sublist h
  disjoint x hx hx' := t.disjoint x hx (h.subset hx')

/-- A trail, cut off before a node on it that follows its end, is a closed walk. -/
theorem isClosedWalk (t : IsTrail next path todo) (hmem : node ∈ path)
    (hnext : ∀ last ∈ path.getLast?, node ∈ next last) :
    IsClosedWalk next (path.dropWhile (· != node) ++ [node]) := by
  have hsuffix := List.dropWhile_suffix (l := path) (· != node)
  cases hd : path.dropWhile (· != node) with
  | nil =>
    rw [List.dropWhile_eq_nil_iff] at hd
    simpa using hd node hmem
  | cons a inner =>
    obtain rfl : a = node := by
      have := List.head?_dropWhile_not (· != node) path
      rw [hd] at this
      simpa using this
    rw [hd] at hsuffix
    obtain ⟨front, rfl⟩ := hsuffix
    refine ⟨?_, ⟨a, inner, rfl⟩, ?_⟩
    · rw [List.isChain_append]
      refine ⟨t.chain.suffix (List.suffix_append _ _), by simp, fun last hlast b hb => ?_⟩
      obtain rfl : a = b := by simpa using hb
      refine hnext last ?_
      rwa [List.getLast?_append_of_ne_nil _ (by simp)]
    · rw [List.dropLast_concat]
      exact t.nodup.sublist (List.sublist_append_right _ _)

end IsTrail

/-- A search enters nodes and never puts one back. -/
theorem sublist_of_explore (path pending todo : List String)
    {rest : { r : List String // r.length ≤ todo.length }}
    (h : explore next path pending todo = .ok rest) : rest.1.Sublist todo := by
  fun_induction explore next path pending todo with
  | case1 path todo =>
    cases h
    exact List.Sublist.refl _
  | case2 => cases h
  | case3 => cases h
  | case4 path todo node others hmem hlt todo₁ h₁ hin todo₂ h₂ hout ih₁ ih₂ =>
    cases h
    exact (ih₂ hout).trans ((ih₁ hin).trans List.erase_sublist)
  | case5 => cases h
  | case6 path todo node others hmem hpath ih => exact ih h

/-- What a search stops at is a closed walk, if it starts from a trail whose end leads to the nodes
it is to look at. -/
theorem isClosedWalk_of_explore (path pending todo : List String) {cycle : List String}
    (h : explore next path pending todo = .error cycle) (t : IsTrail next path todo)
    (hnext : ∀ last ∈ path.getLast?, ∀ x ∈ pending, x ∈ next last) :
    IsClosedWalk next cycle := by
  fun_induction explore next path pending todo with
  | case1 => cases h
  | case2 path todo node others hmem hlt cycle' hin ih =>
    cases h
    exact ih hin (t.enter hmem fun last hl => hnext last hl node (by simp)) (by simp)
  | case3 path todo node others hmem hlt todo₁ h₁ hin cycle' hout ih₁ ih₂ =>
    cases h
    exact ih₂ hout (t.of_sublist ((sublist_of_explore _ _ _ hin).trans List.erase_sublist))
      fun last hl x hx => hnext last hl x (by simp [hx])
  | case4 => cases h
  | case5 path todo node others hmem hpath =>
    cases h
    exact t.isClosedWalk hpath fun last hl => hnext last hl node (by simp)
  | case6 path todo node others hmem hpath ih =>
    exact ih h t fun last hl x hx => hnext last hl x (by simp [hx])

end Search

/-! ## The two together -/

theorem nodup_eraseDups {α : Type} [BEq α] [LawfulBEq α] (l : List α) : l.eraseDups.Nodup := by
  induction h : l.length using Nat.strongRecOn generalizing l with
  | _ n ih =>
    cases l with
    | nil => simp
    | cons a as =>
      rw [List.eraseDups_cons, List.nodup_cons, List.mem_eraseDups]
      have hle := List.length_filter_le (fun b => !b == a) as
      simp only [List.length_cons] at h
      exact ⟨by simp, ih _ (by omega) _ rfl⟩

/-- Every node is an id or a dependency, and so are the successors of every node. -/
theorem successors_subset_nodes (instructions : List Instruction) {a b : String}
    (h : DependsOn instructions a b) : b ∈ nodes instructions := by
  unfold DependsOn successors at h
  split at h
  · rename_i i hi
    have hmem : i ∈ instructions := List.mem_reverse.1 (List.mem_of_find?_eq_some hi)
    rw [nodes, List.mem_eraseDups]
    exact List.mem_flatMap.2 ⟨i, hmem, List.mem_cons_of_mem _ h⟩
  · cases h

theorem ids_subset_nodes (instructions : List Instruction) {a : String}
    (h : a ∈ ids instructions) : a ∈ nodes instructions := by
  obtain ⟨i, hi, rfl⟩ := List.mem_map.1 h
  rw [nodes, List.mem_eraseDups]
  exact List.mem_flatMap.2 ⟨i, hi, by simp⟩

/-- Only an id depends on something. -/
theorem mem_ids_of_dependsOn {instructions : List Instruction} {a b : String}
    (h : DependsOn instructions a b) : a ∈ ids instructions := by
  unfold DependsOn successors at h
  split at h
  · rename_i i hi
    exact mem_ids_of_lookup? hi
  · cases h

/-- The cycle that is found is a closed walk along dependencies. -/
theorem isClosedWalk_of_findCycle {instructions : List Instruction} {cycle : List String}
    (h : findCycle instructions = some cycle) :
    IsClosedWalk (successors instructions) cycle := by
  unfold findCycle at h
  split at h
  · rename_i found hfound
    cases h
    refine isClosedWalk_of_explore _ _ _ hfound ⟨by simp, by simp, ?_, by simp⟩ (by simp)
    exact nodup_eraseDups _
  · cases h

/-- A walk of at least one step makes its end reachable from its start. -/
theorem transGen_of_isChain {α : Type} {r : α → α → Prop} :
    ∀ (inner : List α) {a b : α}, (a :: inner ++ [b]).IsChain r → TransGen r a b
  | [], a, b, h => .single (by simpa using h)
  | c :: inner, a, b, h => by
    rw [List.cons_append, List.cons_append, List.isChain_cons_cons] at h
    exact .head h.1 (transGen_of_isChain inner h.2)

theorem not_transGen_self_of_acc {α : Type} {r : α → α → Prop} {a : α}
    (h : Acc (fun b a => r a b) a) : ¬TransGen r a a := by
  induction h with
  | intro a _ ih =>
    intro hcycle
    obtain ⟨b, hab, hba⟩ := TransGen.head'_iff.1 hcycle
    exact ih b hab (TransGen.trans_right hba (.single hab))

/-- Where the search finds nothing, nothing endless starts from an id. -/
theorem acc_of_findCycle {instructions : List Instruction} (h : findCycle instructions = none)
    {id : String} (hid : id ∈ ids instructions) :
    Acc (fun b a => DependsOn instructions a b) id := by
  unfold findCycle at h
  split at h
  · cases h
  · rename_i rest hrest
    have hclosed : ∀ x ∈ nodes instructions, ∀ y ∈ successors instructions x,
        y ∈ nodes instructions :=
      fun x _ y hy => successors_subset_nodes instructions hy
    exact (acc_of_explore hclosed _ _ _ hrest
      (fun x hx => ids_subset_nodes instructions hx) fun x hx hxt _ => (hxt hx).elim).1 id hid

/-- The search finds nothing exactly in an acyclic graph. -/
theorem findCycle_eq_none_iff (instructions : List Instruction) :
    findCycle instructions = none ↔ Acyclic instructions := by
  constructor
  · intro h id hcycle
    obtain ⟨b, hb, -⟩ := TransGen.head'_iff.1 hcycle
    exact not_transGen_self_of_acc (acc_of_findCycle h (mem_ids_of_dependsOn hb)) hcycle
  · intro h
    cases hc : findCycle instructions with
    | none => rfl
    | some cycle =>
      have hwalk := isClosedWalk_of_findCycle hc
      obtain ⟨a, inner, rfl⟩ := hwalk.closed
      exact (h a (transGen_of_isChain inner hwalk.chain)).elim

/-- A graph in which ids depend only on ids of lower rank is acyclic. -/
theorem acyclic_of_rank {instructions : List Instruction} (rank : String → Nat)
    (h : ∀ i ∈ instructions, ∀ d ∈ i.dependencies, rank d < rank i.id) :
    Acyclic instructions := by
  have hstep {a b : String} (hab : DependsOn instructions a b) : rank b < rank a := by
    obtain ⟨front, i, back, rfl, rfl, -, hb⟩ := dependsOn_iff.1 hab
    exact h i (List.mem_append_right _ List.mem_cons_self) b hb
  have hwalk {a b : String} (hab : TransGen (DependsOn instructions) a b) : rank b < rank a := by
    induction hab with
    | single hab => exact hstep hab
    | tail _ hbc ih => exact (hstep hbc).trans ih
  exact fun id hid => (hwalk hid).false

/-- The search for a cycle ends on every list. It finds nothing exactly in an acyclic graph, and
what it finds otherwise is a cycle : a walk along dependencies through ids, back to where it starts,
that meets no other id twice. -/
theorem findCycle_decides (instructions : List Instruction) :
    (findCycle instructions = none ↔ Acyclic instructions) ∧
      ∀ walk, findCycle instructions = some walk →
        2 ≤ walk.length ∧ walk.head? = walk.getLast? ∧ walk.dropLast.Nodup ∧
          (∀ a ∈ walk, a ∈ ids instructions) ∧ walk.IsChain (DependsOn instructions) := by
  refine ⟨findCycle_eq_none_iff instructions, fun walk hwalk => ?_⟩
  have h := isClosedWalk_of_findCycle hwalk
  refine ⟨h.two_le_length, h.head?_eq_getLast?, h.nodup, fun a ha => ?_, h.chain⟩
  obtain ⟨b, hb⟩ := h.exists_next ha
  exact mem_ids_of_dependsOn hb

/-- The search comes upon a cycle from outside, past an id that is no instruction and one that
comes twice. -/
def detour : List Instruction :=
  [{ id := "start", op := .defineTask, dependencies := ["gone", "a"] },
    { id := "a", op := .defineTask }, { id := "b", op := .defineTask, dependencies := ["c"] },
    { id := "c", op := .defineTask, dependencies := ["b", "a"] },
    { id := "a", op := .defineTask, dependencies := ["b"] }]

/-- The path to the cycle is not part of what is found. -/
theorem findCycle_of_detour : findCycle detour = some ["b", "c", "b"] ∧
    ["b", "c", "b"].IsChain (DependsOn detour) ∧ ¬Acyclic detour := by
  have h : findCycle detour = some ["b", "c", "b"] := by cbv
  obtain ⟨hnone, hsome⟩ := findCycle_decides detour
  refine ⟨h, (hsome _ h).2.2.2.2, fun hacyclic => ?_⟩
  simpa [h] using hnone.2 hacyclic

end PlanReview.Graph
