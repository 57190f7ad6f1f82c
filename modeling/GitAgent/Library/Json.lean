import Mathlib.Data.Int.Notation
import Mathlib.Data.List.Basic

/-!
# JSON values

The values of JSON. An object is a list of fields in which a name occurs at most once, so
that a field is looked up by its name (`Json.get`). A value is read as a value of one kind by
the functions `Json.asString`, `Json.asBool`, `Json.asObject` and `Json.asArray`, which take
every other value, and a missing one, for the empty one.
-/

/-- A JSON value. A number that is not written as an integer is a fraction. Where a decoder has
infinities, these are fractions with the denominator zero, and so is what is not a number. -/
inductive Json
  | null
  | bool (b : Bool)
  | int (n : ℤ)
  | float (num : ℤ) (den : ℕ)
  | str (s : String)
  | arr (values : List Json)
  | obj (fields : List (String × Json))

namespace Json

abbrev Fields := List (String × Json)

/-- The field `k` of an object. -/
def get (d : Fields) (k : String) : Option Json :=
  d.lookup k

/-- A text, or the empty text. -/
def asString : Option Json → String
  | some (str s) => s
  | _ => ""

/-- A truth value, or `false`. -/
def asBool : Option Json → Bool
  | some (bool b) => b
  | _ => false

/-- The values of an array, or none. -/
def asArray : Option Json → List Json
  | some (arr values) => values
  | _ => []

/-- The fields of an object. -/
def asObject : Option Json → Option Fields
  | some (obj fields) => some fields
  | _ => none

/-- A field that is present only where its value is. -/
def field (k : String) (value : Option Json) : Fields :=
  match value with
  | some v => [(k, v)]
  | none => []

@[simp]
theorem get_nil (k : String) :
  get [] k = none
  := rfl

@[simp]
theorem get_cons (k k' : String) (v : Json) (d : Fields) :
  get ((k', v) :: d) k = if k = k' then some v else get d k
  := by
  rw [get, List.lookup_cons]
  split
  · rename_i h
    rw [if_pos (eq_of_beq h)]
  · rename_i h
    rw [if_neg (ne_of_beq_false h), get]

/-- The field that is looked up is the first one of that name that is present. -/
@[simp]
theorem get_field_append (k k' : String) (value : Option Json) (d : Fields) :
  get (field k' value ++ d) k = if k = k' then value.or (get d k) else get d k
  := by
  cases value with
  | none => simp [field]
  | some v => apply get_cons

@[simp]
theorem get_field (k k' : String) (value : Option Json) :
  get (field k' value) k = if k = k' then value else none
  := by
  rw [← List.append_nil (field k' value), get_field_append, get_nil, Option.or_none]

/-! ### Equality -/

mutual

/-- Whether two values are the same. -/
def decEq (a b : Json) : Decidable (a = b) :=
  match a with
  | null =>
      match b with
      | null => isTrue rfl
      | bool _ | int _ | float .. | str _ | arr _ | obj _ => isFalse nofun
  | bool x =>
      match b with
      | bool y => decidable_of_iff (x = y) (by simp)
      | null | int _ | float .. | str _ | arr _ | obj _ => isFalse nofun
  | int x =>
      match b with
      | int y => decidable_of_iff (x = y) (by simp)
      | null | bool _ | float .. | str _ | arr _ | obj _ => isFalse nofun
  | float x d =>
      match b with
      | float y e => decidable_of_iff (x = y ∧ d = e) (by simp)
      | null | bool _ | int _ | str _ | arr _ | obj _ => isFalse nofun
  | str x =>
      match b with
      | str y => decidable_of_iff (x = y) (by simp)
      | null | bool _ | int _ | float .. | arr _ | obj _ => isFalse nofun
  | arr xs =>
      match b with
      | arr ys =>
          have := decEqValues xs ys
          decidable_of_iff (xs = ys) (by simp)
      | null | bool _ | int _ | float .. | str _ | obj _ => isFalse nofun
  | obj xs =>
      match b with
      | obj ys =>
          have := decEqFields xs ys
          decidable_of_iff (xs = ys) (by simp)
      | null | bool _ | int _ | float .. | str _ | arr _ => isFalse nofun

/-- Whether two arrays are the same. -/
def decEqValues (xs ys : List Json) : Decidable (xs = ys) :=
  match xs, ys with
  | [], [] => isTrue rfl
  | [], _ :: _ | _ :: _, [] => isFalse nofun
  | x :: xs, y :: ys =>
      have := decEq x y
      have := decEqValues xs ys
      decidable_of_iff (x = y ∧ xs = ys) (by simp)

/-- Whether two objects are the same, field by field. -/
def decEqFields (xs ys : List (String × Json)) : Decidable (xs = ys) :=
  match xs, ys with
  | [], [] => isTrue rfl
  | [], _ :: _ | _ :: _, [] => isFalse nofun
  | (k, x) :: xs, (l, y) :: ys =>
      have := decEq x y
      have := decEqFields xs ys
      decidable_of_iff (k = l ∧ x = y ∧ xs = ys) (by simp [and_assoc])

end

instance : DecidableEq Json :=
  decEq

end Json
