import Obolos.Js.Same
import Obolos.Js.Utf8
import Mathlib.Data.List.Lex

/-!
# The order of keys in a `jsonb` column

A `jsonb` value keeps the fields of an object sorted by key: shorter keys first, and keys of the
same length in the order of their bytes.  What is read from a column has that order, whatever the
order was in the text that was stored.
-/

namespace Obolos

namespace Json

/-- The order of two fields in a `jsonb` object. -/
def jsonbLe (a b : JsString × Json) : Prop :=
  (JsString.utf8 a.1).length < (JsString.utf8 b.1).length ∨
    ((JsString.utf8 a.1).length = (JsString.utf8 b.1).length ∧
      JsString.utf8 a.1 ≤ JsString.utf8 b.1)

instance : DecidableRel jsonbLe := fun a b =>
  inferInstanceAs (Decidable ((JsString.utf8 a.1).length < (JsString.utf8 b.1).length ∨
    ((JsString.utf8 a.1).length = (JsString.utf8 b.1).length ∧
      JsString.utf8 a.1 ≤ JsString.utf8 b.1)))

mutual

/-- `JSON.parse` of the text of the `jsonb` value. -/
def jsonb : Json → Json
  | .arr items => .arr (jsonbItems items)
  | .obj fields => .obj ((jsonbFields fields).insertionSort jsonbLe)
  | .null => .null
  | .bool b => .bool b
  | .num q => .num q
  | .infinite => .infinite
  | .str s => .str s

/-- `jsonb` for every item. -/
def jsonbItems : List Json → List Json
  | [] => []
  | x :: items => jsonb x :: jsonbItems items

/-- `jsonb` for every field. -/
def jsonbFields : List (JsString × Json) → List (JsString × Json)
  | [] => []
  | (key, x) :: fields => (key, jsonb x) :: jsonbFields fields

end

/-- An object of texts. -/
def texts (fields : List (JsString × JsString)) : List (JsString × Json) :=
  fields.map fun field => (field.1, .str field.2)

theorem finite_texts (fields : List (JsString × JsString)) :
    (Json.obj (texts fields)).finite = true := by
  show finiteFields (texts fields) = true
  induction fields with
  | nil => rfl
  | cons field fields ih => exact ih

theorem distinct_texts {fields : List (JsString × JsString)} (h : (fields.map Prod.fst).Nodup) :
    (Json.obj (texts fields)).Distinct := by
  refine .obj ?_ fun field hfield => ?_
  · simpa [texts, Function.comp_def] using h
  · obtain ⟨f, -, rfl⟩ := List.mem_map.1 hfield
    exact .str _

theorem jsonb_texts (fields : List (JsString × JsString)) :
    jsonb (.obj (texts fields)) = .obj ((texts fields).insertionSort jsonbLe) := by
  have hfields : jsonbFields (texts fields) = texts fields := by
    induction fields with
    | nil => rfl
    | cons field fields ih => exact congrArg ((field.1, Json.str field.2) :: ·) ih
  rw [jsonb, hfields]

end Json

end Obolos
