import PlanReview.Plan.Encode
import PlanReview.Proofs.Json.RoundTrip

/-!
# What a file keeps of a value

A stored document is read back as `kept` : doubles that are no numbers have become null, and the
repeated keys of an object are merged. A document that is built from records keeps its shape
(`kept_obj`), so that only the values inside it that are no numbers change, and what was kept once
is kept whole (`kept_kept`).
-/

namespace PlanReview.Json

/-- The value that a text of it holds. -/
def kept (j : Json) : Json :=
  j.finite.merged

/-- Fields with repeated keys merged. -/
def distinct (fs : Fields) : Fields :=
  fs.foldl (fun acc f => setField acc f.1 f.2) []

/-- The fields that a text of them holds. -/
def keptFields (fs : Fields) : Fields :=
  distinct (mergedFields (finiteFields fs))

/-! ## Scalars and arrays -/

@[simp] theorem kept_null : kept null = null := rfl

@[simp] theorem kept_bool (b : Bool) : kept (bool b) = bool b := rfl

@[simp] theorem kept_int (n : Int) : kept (int n) = int n := rfl

@[simp] theorem kept_str (s : String) : kept (str s) = str s := rfl

theorem kept_float (x : Float) : kept (float x) = if x.isFinite then float x else null := by
  unfold kept
  rw [finite]
  split <;> rfl

theorem finiteItems_eq (xs : List Json) : finiteItems xs = xs.map finite := by
  induction xs with
  | nil => rfl
  | cons x xs ih => rw [finiteItems, ih, List.map_cons]

theorem mergedItems_eq (xs : List Json) : mergedItems xs = xs.map merged := by
  induction xs with
  | nil => rfl
  | cons x xs ih => rw [mergedItems, ih, List.map_cons]

theorem kept_arr (xs : List Json) : kept (arr xs) = arr (xs.map kept) := by
  unfold kept
  rw [finite, merged, finiteItems_eq, mergedItems_eq, List.map_map]
  rfl

section Written

variable {α : Type} {write : α → Json} {f : α → α}

/-- A written list, if a file holds of every item what is written for another one. -/
theorem kept_list (h : ∀ a, (write a).kept = write (f a)) (items : List α) :
    kept (.list write items) = .list write (items.map f) := by
  rw [list, kept_arr, list, List.map_map, List.map_map]
  congr 2
  exact funext h

@[simp] theorem kept_list_id (h : ∀ a, (write a).kept = write a) (items : List α) :
    kept (.list write items) = .list write items := by
  rw [kept_list (f := id) h, List.map_id]

theorem kept_ofOption (h : ∀ a, (write a).kept = write (f a)) (o : Option α) :
    kept (ofOption write o) = ofOption write (o.map f) := by
  cases o with
  | none => rfl
  | some a => exact h a

@[simp] theorem kept_ofOption_id (h : ∀ a, (write a).kept = write a) (o : Option α) :
    kept (ofOption write o) = ofOption write o := by
  rw [kept_ofOption (f := id) h, Option.map_id]
  rfl

end Written

@[simp] theorem kept_strings (items : List String) : kept (strings items) = strings items :=
  kept_list_id kept_str items

@[simp] theorem kept_ofOption_str (o : Option String) : kept (ofOption .str o) = ofOption .str o :=
  kept_ofOption_id kept_str o

@[simp] theorem kept_ofOption_bool (o : Option Bool) : kept (ofOption .bool o) = ofOption .bool o :=
  kept_ofOption_id kept_bool o

@[simp] theorem kept_ofOption_int (o : Option Int) : kept (ofOption .int o) = ofOption .int o :=
  kept_ofOption_id kept_int o

@[simp] theorem kept_ofOption_float (o : Option Float) :
    kept (ofOption .float o) = ofOption .float (o.filter Float.isFinite) := by
  cases o with
  | none => rfl
  | some x =>
    rw [ofOption, kept_float, Option.filter]
    split <;> rfl

/-! ## Objects -/

theorem finiteFields_eq (fs : Fields) : finiteFields fs = fs.map fun f => (f.1, f.2.finite) := by
  induction fs with
  | nil => rfl
  | cons f fs ih => rw [finiteFields, ih, List.map_cons]

theorem mergedFields_eq (fs : Fields) : mergedFields fs = fs.map fun f => (f.1, f.2.merged) := by
  induction fs with
  | nil => rfl
  | cons f fs ih => rw [mergedFields, ih, List.map_cons]

theorem keptFields_eq (fs : Fields) :
    keptFields fs = distinct (fs.map fun f => (f.1, f.2.kept)) := by
  rw [keptFields, finiteFields_eq, mergedFields_eq, List.map_map]
  rfl

theorem kept_obj_fields (fs : Fields) : kept (.obj fs) = .obj (keptFields fs) := rfl

theorem setField_of_notMem {fs : Fields} {key : String} (h : key ∉ fs.map Prod.fst) (j : Json) :
    setField fs key j = fs ++ [(key, j)] := by
  induction fs with
  | nil => rfl
  | cons f fs ih =>
    rw [List.map_cons, List.mem_cons, not_or] at h
    rw [setField, if_neg (Ne.symm h.1), ih h.2, List.cons_append]

theorem foldl_setField {acc fs : Fields} (h : ((acc ++ fs).map Prod.fst).Nodup) :
    fs.foldl (fun acc f => setField acc f.1 f.2) acc = acc ++ fs := by
  induction fs generalizing acc with
  | nil => rw [List.foldl_nil, List.append_nil]
  | cons f fs ih =>
    have hsplit : acc ++ f :: fs = (acc ++ [f]) ++ fs := by simp
    have hf : f.1 ∉ acc.map Prod.fst := by
      rw [List.map_append, List.nodup_append] at h
      exact fun hmem => h.2.2 _ hmem _ List.mem_cons_self rfl
    rw [hsplit] at h
    rw [List.foldl_cons, setField_of_notMem hf, ih h, hsplit]

/-- Fields without a repeated key stay as they are. -/
theorem distinct_of_nodup {fs : Fields} (h : (fs.map Prod.fst).Nodup) : distinct fs = fs :=
  @foldl_setField [] fs h

theorem nodup_setField {fs : Fields} (h : (fs.map Prod.fst).Nodup) (key : String) (j : Json) :
    ((setField fs key j).map Prod.fst).Nodup := by
  by_cases hmem : key ∈ fs.map Prod.fst
  · have hsame : (setField fs key j).map Prod.fst = fs.map Prod.fst := by
      clear h
      induction fs with
      | nil => cases hmem
      | cons f fs ih =>
        rw [setField]
        split
        · rename_i hkey
          rw [List.map_cons, List.map_cons, hkey]
        · rename_i hkey
          have hrest := (List.mem_cons.1 hmem).resolve_left (Ne.symm hkey)
          rw [List.map_cons, List.map_cons, ih hrest]
    rwa [hsame]
  · rw [setField_of_notMem hmem, List.map_append, List.map_singleton]
    refine List.nodup_append.2 ⟨h, List.nodup_singleton key, ?_⟩
    rintro k hk _ hk' rfl
    rw [List.mem_singleton.1 hk'] at hk
    exact hmem hk

theorem nodup_distinct (fs : Fields) : ((distinct fs).map Prod.fst).Nodup := by
  have hfold (acc : Fields) (hacc : (acc.map Prod.fst).Nodup) :
      ((fs.foldl (fun acc f => setField acc f.1 f.2) acc).map Prod.fst).Nodup := by
    induction fs generalizing acc with
    | nil => exact hacc
    | cons f fs ih => exact ih _ (nodup_setField hacc f.1 f.2)
  exact hfold [] List.nodup_nil

theorem distinct_distinct (fs : Fields) : distinct (distinct fs) = distinct fs :=
  distinct_of_nodup (nodup_distinct fs)

theorem setField_map (f : Json → Json) (fs : Fields) (key : String) (j : Json) :
    setField (fs.map fun p => (p.1, f p.2)) key (f j) =
      (setField fs key j).map fun p => (p.1, f p.2) := by
  induction fs with
  | nil => rfl
  | cons p fs ih =>
    rw [List.map_cons, setField, setField, ih]
    split <;> rfl

/-- Changing the values does not change which keys are repeated. -/
theorem distinct_map (f : Json → Json) (fs : Fields) :
    distinct (fs.map fun p => (p.1, f p.2)) = (distinct fs).map fun p => (p.1, f p.2) := by
  have hfold (acc : Fields) :
      (fs.map fun p => (p.1, f p.2)).foldl (fun acc p => setField acc p.1 p.2)
          (acc.map fun p => (p.1, f p.2)) =
        (fs.foldl (fun acc p => setField acc p.1 p.2) acc).map fun p => (p.1, f p.2) := by
    induction fs generalizing acc with
    | nil => rfl
    | cons p fs ih => rw [List.map_cons, List.foldl_cons, List.foldl_cons, setField_map, ih]
  exact hfold []

theorem keptFields_of_nodup {fs : Fields} (h : (fs.map Prod.fst).Nodup) :
    keptFields fs = fs.map fun f => (f.1, f.2.kept) := by
  rw [keptFields_eq, distinct_of_nodup]
  rwa [List.map_map]

/-- An object without a repeated key keeps its fields. -/
theorem kept_obj {fs : Fields} (h : (fs.map Prod.fst).Nodup) :
    kept (.obj fs) = .obj (fs.map fun f => (f.1, f.2.kept)) := by
  rw [kept_obj_fields, keptFields_of_nodup h]

/-! ## What is kept once is kept as it is -/

mutual
theorem isFinite_finite : ∀ j : Json, j.finite.isFinite = true
  | null | bool _ | int _ | str _ => rfl
  | float x => by
    rw [finite]
    split
    · assumption
    · rfl
  | arr xs => isFiniteItems_finite xs
  | obj fs => isFiniteFields_finite fs

theorem isFiniteItems_finite : ∀ xs : List Json, isFiniteItems (finiteItems xs) = true
  | [] => rfl
  | x :: xs => by
    rw [finiteItems, isFiniteItems, isFinite_finite x, isFiniteItems_finite xs, Bool.and_self]

theorem isFiniteFields_finite : ∀ fs : Fields, isFiniteFields (finiteFields fs) = true
  | [] => rfl
  | (_, v) :: fs => by
    rw [finiteFields, isFiniteFields, isFinite_finite v, isFiniteFields_finite fs, Bool.and_self]
end

mutual
theorem finite_of_isFinite : ∀ {j : Json}, j.isFinite = true → j.finite = j
  | null, _ | bool _, _ | int _, _ | str _, _ => rfl
  | float _, h => if_pos h
  | arr xs, h => by rw [finite, @finiteItems_of_isFinite xs h]
  | obj fs, h => by rw [finite, @finiteFields_of_isFinite fs h]

theorem finiteItems_of_isFinite : ∀ {xs : List Json}, isFiniteItems xs = true → finiteItems xs = xs
  | [], _ => rfl
  | x :: xs, h => by
    rw [isFiniteItems, Bool.and_eq_true] at h
    rw [finiteItems, finite_of_isFinite h.1, finiteItems_of_isFinite h.2]

theorem finiteFields_of_isFinite : ∀ {fs : Fields}, isFiniteFields fs = true → finiteFields fs = fs
  | [], _ => rfl
  | (_, v) :: fs, h => by
    rw [isFiniteFields, Bool.and_eq_true] at h
    rw [finiteFields, finite_of_isFinite h.1, finiteFields_of_isFinite h.2]
end

theorem isFiniteFields_setField {fs : Fields} {j : Json} (key : String)
    (hfs : isFiniteFields fs = true) (hj : j.isFinite = true) :
    isFiniteFields (setField fs key j) = true := by
  induction fs with
  | nil => simp [setField, isFiniteFields, hj]
  | cons f fs ih =>
    rw [isFiniteFields, Bool.and_eq_true] at hfs
    rw [setField]
    split
    · simp [isFiniteFields, hj, hfs.2]
    · simp [isFiniteFields, hfs.1, ih hfs.2]

theorem isFiniteFields_distinct {fs : Fields} (h : isFiniteFields fs = true) :
    isFiniteFields (distinct fs) = true := by
  have hfold (acc : Fields) (hacc : isFiniteFields acc = true) :
      isFiniteFields (fs.foldl (fun acc f => setField acc f.1 f.2) acc) = true := by
    induction fs generalizing acc with
    | nil => exact hacc
    | cons f fs ih =>
      rw [isFiniteFields, Bool.and_eq_true] at h
      exact ih h.2 _ (isFiniteFields_setField f.1 hacc h.1)
  exact hfold [] rfl

mutual
theorem isFinite_merged : ∀ {j : Json}, j.isFinite = true → j.merged.isFinite = true
  | null, _ | bool _, _ | int _, _ | str _, _ => rfl
  | float _, h => h
  | arr xs, h => @isFiniteItems_merged xs h
  | obj fs, h => isFiniteFields_distinct (@isFiniteFields_merged fs h)

theorem isFiniteItems_merged :
    ∀ {xs : List Json}, isFiniteItems xs = true → isFiniteItems (mergedItems xs) = true
  | [], _ => rfl
  | x :: xs, h => by
    rw [isFiniteItems, Bool.and_eq_true] at h
    rw [mergedItems, isFiniteItems, isFinite_merged h.1, isFiniteItems_merged h.2, Bool.and_self]

theorem isFiniteFields_merged :
    ∀ {fs : Fields}, isFiniteFields fs = true → isFiniteFields (mergedFields fs) = true
  | [], _ => rfl
  | (_, v) :: fs, h => by
    rw [isFiniteFields, Bool.and_eq_true] at h
    rw [mergedFields, isFiniteFields, isFinite_merged h.1, isFiniteFields_merged h.2, Bool.and_self]
end

theorem finite_finite (j : Json) : j.finite.finite = j.finite :=
  finite_of_isFinite (isFinite_finite j)

theorem kept_finite (j : Json) : j.finite.kept = j.kept := by
  rw [kept, finite_finite, kept]

/-- What a text holds has no double that is no number. -/
theorem finite_kept (j : Json) : j.kept.finite = j.kept :=
  finite_of_isFinite (isFinite_merged (isFinite_finite j))

theorem finiteFields_distinct (fs : Fields) :
    finiteFields (distinct fs) = distinct (finiteFields fs) := by
  rw [finiteFields_eq, finiteFields_eq, distinct_map]

theorem mergedFields_distinct (fs : Fields) :
    mergedFields (distinct fs) = distinct (mergedFields fs) := by
  rw [mergedFields_eq, mergedFields_eq, distinct_map]

mutual
theorem finite_merged : ∀ j : Json, j.merged.finite = j.finite.merged
  | null | bool _ | int _ | str _ => rfl
  | float x => by
    change (float x).finite = (float x).finite.merged
    rw [finite]
    split <;> rfl
  | arr xs => congrArg arr (finiteItems_merged xs)
  | obj fs => congrArg obj ((finiteFields_distinct _).trans
      (congrArg distinct (finiteFields_merged fs)))

theorem finiteItems_merged :
    ∀ xs : List Json, finiteItems (mergedItems xs) = mergedItems (finiteItems xs)
  | [] => rfl
  | x :: xs => by
    rw [mergedItems, finiteItems, finiteItems, mergedItems, finite_merged x, finiteItems_merged xs]

theorem finiteFields_merged :
    ∀ fs : Fields, finiteFields (mergedFields fs) = mergedFields (finiteFields fs)
  | [] => rfl
  | (_, v) :: fs => by
    rw [mergedFields, finiteFields, finiteFields, mergedFields, finite_merged v,
      finiteFields_merged fs]
end

mutual
theorem merged_merged : ∀ j : Json, j.merged.merged = j.merged
  | null | bool _ | int _ | float _ | str _ => rfl
  | arr xs => congrArg arr (mergedItems_mergedItems xs)
  | obj fs => by
    have hfields : mergedFields (distinct (mergedFields fs)) = distinct (mergedFields fs) := by
      rw [mergedFields_distinct, mergedFields_mergedFields fs]
    exact congrArg obj ((congrArg distinct hfields).trans (distinct_distinct _))

theorem mergedItems_mergedItems : ∀ xs : List Json, mergedItems (mergedItems xs) = mergedItems xs
  | [] => rfl
  | x :: xs => by
    rw [mergedItems, mergedItems, merged_merged x, mergedItems_mergedItems xs]

theorem mergedFields_mergedFields :
    ∀ fs : Fields, mergedFields (mergedFields fs) = mergedFields fs
  | [] => rfl
  | (_, v) :: fs => by
    rw [mergedFields, mergedFields, merged_merged v, mergedFields_mergedFields fs]
end

/-- What a text holds of a value, a text of that holds whole. -/
theorem kept_kept (j : Json) : j.kept.kept = j.kept := by
  rw [kept, finite_kept, kept, merged_merged]

theorem keptFields_keptFields (fs : Fields) : keptFields (keptFields fs) = keptFields fs :=
  Json.obj.inj (kept_kept (.obj fs))

/-- A value in which no object repeats a key is kept but for what is no number. -/
theorem kept_of_merged {j : Json} (h : j.merged = j) : j.kept = j.finite := by
  rw [kept, ← finite_merged, h]

end PlanReview.Json
