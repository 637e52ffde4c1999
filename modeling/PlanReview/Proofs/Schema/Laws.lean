import PlanReview.Plan.Encode
import PlanReview.Schema.Decoder

/-!
# Reading what was written

Laws for the parts of a document : a decoder that reads every written item reads a written list of
them, and so on. The laws allow that reading changes an item, because a document keeps no double
that is no number.
-/

namespace PlanReview.Schema

open Json (ofOption strings)

variable {α β : Type} {d : Decoder β} {write : α → Json} {f : α → β}

/-! ## Scalars -/

@[simp] theorem string_str (s : String) : string (.str s) = .ok s := rfl

@[simp] theorem int_int (n : Int) : int (.int n) = .ok n := rfl

@[simp] theorem bool_bool (b : Bool) : bool (.bool b) = .ok b := rfl

@[simp] theorem float_float (x : Float) : float (.float x) = .ok x := rfl

@[simp] theorem any_eq (j : Json) : any j = .ok j := rfl

@[simp] theorem dict_obj (fs : Json.Fields) : dict (.obj fs) = .ok fs := rfl

/-! ## Fields -/

@[simp] theorem record_obj (name : String) (read : Json.Fields → Checked α) (fs : Json.Fields) :
    record name read (.obj fs) = read fs := rfl

@[simp] theorem required_cons_self (d : Decoder α) (name : String) (j : Json) (fs : Json.Fields) :
    required ((name, j) :: fs) name d = (d j).under (.field name) := by
  simp [required]

@[simp] theorem required_cons_of_ne (d : Decoder α) {name key : String} (h : name ≠ key)
    (j : Json) (fs : Json.Fields) : required ((key, j) :: fs) name d = required fs name d := by
  simp [required, List.lookup_cons, beq_false_of_ne h]

@[simp] theorem optional_cons_self (d : Decoder α) (name : String) (j : Json) (fs : Json.Fields)
    (a : α) : Schema.optional ((name, j) :: fs) name a d = (d j).under (.field name) := by
  simp [Schema.optional]

@[simp] theorem optional_cons_of_ne (d : Decoder α) {name key : String} (h : name ≠ key)
    (j : Json) (fs : Json.Fields) (a : α) :
    Schema.optional ((key, j) :: fs) name a d = Schema.optional fs name a d := by
  simp [Schema.optional, List.lookup_cons, beq_false_of_ne h]

/-! ## Arrays and absent values -/

theorem itemsFrom_map (i : Nat) (items : List α) (h : ∀ a ∈ items, d (write a) = .ok (f a)) :
    itemsFrom d i (items.map write) = .ok (items.map f) := by
  induction items generalizing i with
  | nil => rfl
  | cons a items ih =>
    rw [List.map_cons, itemsFrom, h a List.mem_cons_self,
      ih (i + 1) fun b hb => h b (List.mem_cons_of_mem _ hb)]
    rfl

theorem list_list {items : List α} (h : ∀ a ∈ items, d (write a) = .ok (f a)) :
    list d (.list write items) = .ok (items.map f) :=
  itemsFrom_map 0 items h

@[simp] theorem list_list_id {d : Decoder α} (h : ∀ a, d (write a) = .ok a) (items : List α) :
    list d (.list write items) = .ok items := by
  rw [list_list (f := id) fun a _ => h a, List.map_id]

@[simp] theorem list_strings (items : List String) : list string (strings items) = .ok items :=
  list_list_id string_str items

theorem nullable_of_ne_null {j : Json} (h : j ≠ .null) : nullable d j = (d j).map some := by
  cases j <;> first | rfl | exact absurd rfl h

theorem nullable_ofOption (hnull : ∀ a, write a ≠ .null) (o : Option α)
    (h : ∀ a ∈ o, d (write a) = .ok (f a)) :
    nullable d (ofOption write o) = .ok (o.map f) := by
  cases o with
  | none => rfl
  | some a =>
    rw [ofOption, nullable_of_ne_null (hnull a), h a rfl]
    rfl

theorem nullable_ofOption_id {d : Decoder α} (hnull : ∀ a, write a ≠ .null)
    (h : ∀ a, d (write a) = .ok a) (o : Option α) :
    nullable d (ofOption write o) = .ok o := by
  rw [nullable_ofOption (f := id) hnull o fun a _ => h a, Option.map_id]
  rfl

@[simp] theorem nullable_string (o : Option String) :
    nullable string (ofOption .str o) = .ok o :=
  nullable_ofOption_id (fun _ => Json.noConfusion) string_str o

@[simp] theorem nullable_int (o : Option Int) : nullable int (ofOption .int o) = .ok o :=
  nullable_ofOption_id (fun _ => Json.noConfusion) int_int o

@[simp] theorem nullable_bool (o : Option Bool) : nullable bool (ofOption .bool o) = .ok o :=
  nullable_ofOption_id (fun _ => Json.noConfusion) bool_bool o

@[simp] theorem nullable_float (o : Option Float) : nullable float (ofOption .float o) = .ok o :=
  nullable_ofOption_id (fun _ => Json.noConfusion) float_float o

@[simp] theorem nullable_dict (o : Option Json.Fields) :
    nullable dict (ofOption .obj o) = .ok o :=
  nullable_ofOption_id (fun _ => Json.noConfusion) dict_obj o

@[simp] theorem list_dict (items : List Json.Fields) :
    list dict (.list .obj items) = .ok items :=
  list_list_id dict_obj items

/-! ## Words -/

theorem choice_word {words : List (String × α)} {word : α → String}
    (h : ∀ a, words.lookup (word a) = some a) (a : α) : choice words (.str (word a)) = .ok a := by
  rw [choice, h a]

theorem member_word {words : List (String × α)} {word : α → String}
    (h : ∀ a, words.lookup (word a) = some a) (a : α) : member words (.str (word a)) = .ok a := by
  rw [member, h a]

end PlanReview.Schema
