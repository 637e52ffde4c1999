import PlanReview.Graph.Reach
import PlanReview.Proofs.Graph.Acyclic

/-!
# What the search for reachable instructions decides

`Leads` says without the search that following dependencies from an id, in zero or more steps,
meets an instruction that satisfies a goal. The search answers yes only then (`leads_of_leadsTo`).
When it answers no, what it has looked at satisfies no goal and depends only on what it has looked
at or is still to look at (`IsExplored`); with nothing left to look at, no goal can be met from
there (`not_leads_of_leadsTo`). So `reaches` decides `Leads` (`reaches_iff`), in whatever order the
instructions come.
-/

namespace PlanReview.Graph

open Relation

variable {instructions : List Instruction} {goal : Instruction → Bool}

/-- Following dependencies from the id meets an instruction that satisfies the goal. -/
def Leads (instructions : List Instruction) (goal : Instruction → Bool) (id : String) : Prop :=
  ∃ target i, ReflTransGen (DependsOn instructions) id target ∧
    lookup? instructions target = some i ∧ goal i = true

theorem Leads.head {a b : String} (hab : DependsOn instructions a b)
    (h : Leads instructions goal b) : Leads instructions goal a := by
  obtain ⟨target, i, hpath, hi, hgoal⟩ := h
  exact ⟨target, i, .head hab hpath, hi, hgoal⟩

theorem successors_of_lookup? {id : String} {i : Instruction}
    (h : lookup? instructions id = some i) : successors instructions id = i.dependencies := by
  rw [successors, h]

theorem successors_of_lookup?_eq_none {id : String} (h : lookup? instructions id = none) :
    successors instructions id = [] := by
  rw [successors, h]

/-- A search that answers yes has met the goal. -/
theorem leads_of_leadsTo (pending todo : List String)
    (h : leadsTo instructions goal pending todo = true) :
    ∃ id ∈ pending, Leads instructions goal id := by
  fun_induction leadsTo instructions goal pending todo with
  | case1 => cases h
  | case2 todo id rest hmem hlt i hi ih =>
    rcases Bool.or_eq_true_iff.1 h with hgoal | h
    · exact ⟨id, List.mem_cons_self, id, i, .refl, hi, hgoal⟩
    obtain ⟨d, hd, hleads⟩ := ih h
    rcases List.mem_append.1 hd with hd | hd
    · have hdepends : DependsOn instructions id d := by
        rwa [DependsOn, successors_of_lookup? hi]
      exact ⟨id, List.mem_cons_self, hleads.head hdepends⟩
    · exact ⟨d, List.mem_cons_of_mem id hd, hleads⟩
  | case3 todo id rest hmem hlt hi ih =>
    obtain ⟨d, hd, hleads⟩ := ih h
    exact ⟨d, List.mem_cons_of_mem id hd, hleads⟩
  | case4 todo id rest hmem ih =>
    obtain ⟨d, hd, hleads⟩ := ih h
    exact ⟨d, List.mem_cons_of_mem id hd, hleads⟩

/-- An id that was looked at satisfies no goal, and what it depends on was looked at too or is still
to be looked at. -/
def IsExplored (instructions : List Instruction) (goal : Instruction → Bool)
    (pending todo : List String) (id : String) : Prop :=
  (∀ i, lookup? instructions id = some i → goal i = false) ∧
    ∀ d ∈ successors instructions id, d ∈ pending ∨ d ∉ todo

theorem IsExplored.mono {pending todo pending' todo' : List String} {id : String}
    (h : IsExplored instructions goal pending todo id)
    (hrest : ∀ d, d ∈ pending ∨ d ∉ todo → d ∈ pending' ∨ d ∉ todo') :
    IsExplored instructions goal pending' todo' id :=
  ⟨h.1, fun d hd => hrest d (h.2 d hd)⟩

/-- From ids that depend only on each other and satisfy no goal, none is met. -/
theorem not_leads_of_isExplored {todo : List String} {id : String} (hid : id ∉ todo)
    (h : ∀ id ∉ todo, IsExplored instructions goal [] todo id) :
    ¬Leads instructions goal id := by
  have hstays {target : String} (hpath : ReflTransGen (DependsOn instructions) id target) :
      target ∉ todo := by
    induction hpath with
    | refl => exact hid
    | tail _ hdepends ih => exact ((h _ ih).2 _ hdepends).resolve_left List.not_mem_nil
  rintro ⟨target, i, hpath, hi, hgoal⟩
  rw [(h target (hstays hpath)).1 i hi] at hgoal
  cases hgoal

/-- What was looked at, or was to be looked at, still is once a node is looked at. -/
theorem mem_or_notMem_erase {node d : String} {rest pending todo : List String}
    (hnodup : todo.Nodup) (hrest : rest ⊆ pending) (h : d ∈ node :: rest ∨ d ∉ todo) :
    d ∈ pending ∨ d ∉ todo.erase node := by
  rw [hnodup.mem_erase_iff]
  rcases h with h | h
  · rcases List.mem_cons.1 h with rfl | h
    · exact .inr fun hd => hd.1 rfl
    · exact .inl (hrest h)
  · exact .inr fun hd => h hd.2

theorem isExplored_erase {node : String} {rest pending todo : List String} (hnodup : todo.Nodup)
    (hrest : rest ⊆ pending) (hnode : IsExplored instructions goal pending (todo.erase node) node)
    (h : ∀ id ∉ todo, IsExplored instructions goal (node :: rest) todo id) :
    ∀ id ∉ todo.erase node, IsExplored instructions goal pending (todo.erase node) id := by
  intro id hid
  by_cases heq : id = node
  · exact heq ▸ hnode
  · have hid' : id ∉ todo := fun hmem => hid ((List.mem_erase_of_ne heq).2 hmem)
    exact (h id hid').mono fun d => mem_or_notMem_erase hnodup hrest

/-- A search that answers no leaves no goal to be met from what it was to look at, nor from what it
had looked at. -/
theorem not_leads_of_leadsTo (pending todo : List String) (hnodup : todo.Nodup)
    (h : leadsTo instructions goal pending todo = false)
    (hexplored : ∀ id ∉ todo, IsExplored instructions goal pending todo id) :
    ∀ id, id ∈ pending ∨ id ∉ todo → ¬Leads instructions goal id := by
  fun_induction leadsTo instructions goal pending todo with
  | case1 todo =>
    intro id hid
    exact not_leads_of_isExplored (hid.resolve_left List.not_mem_nil) hexplored
  | case2 todo node rest hmem hlt i hi ih =>
    obtain ⟨hgoal, h⟩ := Bool.or_eq_false_iff.1 h
    have hrest : rest ⊆ i.dependencies ++ rest := List.subset_append_right _ _
    have hnode : IsExplored instructions goal (i.dependencies ++ rest) (todo.erase node) node := by
      refine ⟨fun j hj => ?_, fun d hd => .inl (List.mem_append_left _ ?_)⟩
      · rwa [Option.some.inj (hj.symm.trans hi)]
      · rwa [successors_of_lookup? hi] at hd
    have hafter := ih (hnodup.erase node) h (isExplored_erase hnodup hrest hnode hexplored)
    exact fun id hid => hafter id (mem_or_notMem_erase hnodup hrest hid)
  | case3 todo node rest hmem hlt hi ih =>
    have hnode : IsExplored instructions goal rest (todo.erase node) node := by
      refine ⟨fun j hj => ?_, fun d hd => ?_⟩
      · cases hi.symm.trans hj
      · rw [successors_of_lookup?_eq_none hi] at hd
        cases hd
    have hafter := ih (hnodup.erase node) h
      (isExplored_erase hnodup (List.Subset.refl rest) hnode hexplored)
    exact fun id hid => hafter id (mem_or_notMem_erase hnodup (List.Subset.refl rest) hid)
  | case4 todo node rest hmem ih =>
    have hskip {d : String} (hd : d ∈ node :: rest ∨ d ∉ todo) : d ∈ rest ∨ d ∉ todo := by
      rcases hd with hd | hd
      · rcases List.mem_cons.1 hd with rfl | hd
        · exact .inr hmem
        · exact .inl hd
      · exact .inr hd
    have hafter := ih hnodup h fun id hid => (hexplored id hid).mono fun d => hskip
    exact fun id hid => hafter id (hskip hid)

/-- An id is said to lead to the goal exactly if it does. -/
theorem reaches_iff (instructions : List Instruction) (goal : Instruction → Bool) (id : String) :
    reaches instructions goal id = true ↔ Leads instructions goal id := by
  constructor
  · intro h
    obtain ⟨id', hmem, hleads⟩ := leads_of_leadsTo _ _ h
    rwa [← List.mem_singleton.1 hmem]
  · intro hleads
    by_contra h
    have hunknown : ∀ x ∉ (ids instructions).eraseDups,
        IsExplored instructions goal [id] (ids instructions).eraseDups x := by
      intro x hx
      rw [List.mem_eraseDups] at hx
      refine ⟨fun i hi => (hx (mem_ids_of_lookup? hi)).elim, fun d hd => ?_⟩
      exact (hx (mem_ids_of_dependsOn hd)).elim
    exact not_leads_of_leadsTo _ _ (nodup_eraseDups _) (Bool.eq_false_iff.2 h) hunknown id
      (.inl (List.mem_singleton_self id)) hleads

end PlanReview.Graph
