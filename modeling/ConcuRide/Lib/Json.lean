import Mathlib.Data.List.Induction

set_option autoImplicit false

/-! # JSON values

Values as `serde_json` builds and reads them. The fields of an object form a map: a repeated key
keeps the last value, and a missing one reads as `null`. `num` is a number a `u64` can hold, `float`
one that it cannot. -/

namespace Lib

inductive Json where
  | null
  | bool (b : Bool)
  | num (n : ℕ)
  | float (text : String)
  | str (s : String)
  | arr (elements : List Json)
  | obj (fields : List (String × Json))

namespace Json

/-- Add a field to those of an object, in place of an older one of the same key. -/
def insertField (fields : List (String × Json)) (field : String × Json) : List (String × Json) :=
  fields.filter (fun f => f.1 ≠ field.1) ++ [field]

/-- `json!({ k: v, .. })`. -/
def object (fields : List (String × Json)) : Json :=
  .obj (fields.foldl insertField [])

/-- `value.get(key)`. -/
def field? (key : String) : Json → Option Json
  | .obj fields => fields.lookup key
  | _ => none

/-- `value[key]`. -/
def get (key : String) : Json → Json
  | .obj fields => (fields.lookup key).getD .null
  | _ => .null

def asBool : Json → Option Bool
  | .bool b => some b
  | _ => none

def asU64 : Json → Option ℕ
  | .num n => some n
  | _ => none

def asStr : Json → Option String
  | .str s => some s
  | _ => none

def asArray : Json → Option (List Json)
  | .arr elements => some elements
  | _ => none

theorem lookup_insertField (fields : List (String × Json)) (field : String × Json) (key : String) :
    (insertField fields field).lookup key
      = if key = field.1 then some field.2 else fields.lookup key := by
  have hothers : ∀ fs : List (String × Json), (fs.filter fun f => f.1 ≠ field.1).lookup key
      = if key = field.1 then none else fs.lookup key := by
    intro fs
    induction fs with
    | nil => simp
    | cons f fs ih =>
        by_cases hf : f.1 = field.1
        · rw [List.filter_cons_of_neg (by simpa using hf), ih]
          by_cases hk : key = field.1
          · simp [hk]
          · have hkf : key ≠ f.1 := fun h => hk (h.trans hf)
            rw [if_neg hk, if_neg hk, List.lookup_cons, beq_false_of_ne hkf]
        · rw [List.filter_cons_of_pos (by simpa using hf), List.lookup_cons, List.lookup_cons, ih]
          by_cases hk : key = f.1
          · have : key ≠ field.1 := fun h => hf (hk.symm.trans h)
            simp [hk, hf]
          · rw [beq_false_of_ne hk]
  rw [insertField, List.lookup_append, hothers]
  by_cases hk : key = field.1
  · rw [if_pos hk, if_pos hk, Option.none_or, hk, List.lookup_cons, beq_self_eq_true]
  · rw [if_neg hk, if_neg hk, List.lookup_cons, beq_false_of_ne hk, List.lookup_nil, Option.or_none]

/-- The last field of a key is the one that is found. -/
theorem field?_object (key : String) (fields : List (String × Json)) :
    (object fields).field? key = fields.reverse.lookup key := by
  rw [object, field?]
  induction fields using List.reverseRecOn with
  | nil => rfl
  | append_singleton fields field ih =>
      rw [List.foldl_append, List.foldl_cons, List.foldl_nil, lookup_insertField, ih,
        List.reverse_append, List.reverse_singleton, List.singleton_append, List.lookup_cons]
      by_cases hk : key = field.1
      · simp [hk]
      · rw [if_neg hk, beq_false_of_ne hk]

theorem get_eq_field? (key : String) (v : Json) : v.get key = (v.field? key).getD .null := by
  cases v <;> rfl

/-- The last field of a key is the one that is read. -/
theorem get_object (key : String) (fields : List (String × Json)) :
    (object fields).get key = (fields.reverse.lookup key).getD .null := by
  rw [get_eq_field?, field?_object]

/-- `Option<T>`, where `None` is `null`. -/
def ofOption {α : Type} (f : α → Json) : Option α → Json
  | some a => f a
  | none => .null

end Json

end Lib
