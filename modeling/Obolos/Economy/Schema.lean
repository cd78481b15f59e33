import Obolos.Js.Value

/-!
# Constrained JSON schemas

The first half of `service-contract.ts`: bounded JSON values and their hash (`assertJson`,
`canonicalJsonHash`), the schema language (`isSchema`) and its meaning (`matchesSchema`).  A
schema is itself a JSON value, kept as it was received.
-/

namespace Obolos

namespace Json

variable (H : Host)

/-! ### Bounded values -/

/-- `visit(current, depth)` of `assertJson`, with `13 - depth` levels left. -/
def visit : ℕ → Json → Except JsError Unit
  | 0, _ => JsError.raise "JSON nesting exceeds limit"
  | levels + 1, x =>
    match x with
    | .null => .ok ()
    | .str _ => .ok ()
    | .bool _ => .ok ()
    | .num _ => .ok ()
    | .infinite => JsError.raise "JSON number must be finite"
    | .arr items => do
      if items.length > 1000 then JsError.raise "JSON array exceeds limit"
      items.forM (visit levels)
    | .obj entries => do
      if entries.length > 1000 then JsError.raise "JSON object exceeds limit"
      entries.forM fun entry => do
        if entry.1 = [] ∨ entry.1.length > 256 then JsError.raise "Invalid JSON key"
        visit levels entry.2

/-- `assertJson(value, limit)` -/
def assertJson (x : Json) (limit : ℕ) : Except JsError Unit := do
  visit 13 x
  if (canonicalJson H.numerals x).utf8Length > limit then
    JsError.raise "JSON payload exceeds limit"

/-- `canonicalJsonHash(value)` -/
def canonicalJsonHash (x : Json) : Except JsError Bytes32 := do
  assertJson H x (128 * 1024)
  return H.textHash (canonicalJson H.numerals x)

/-! ### Schemas -/

mutual

/-- `String(value)` -/
def text : Json → JsString
  | .null => js "null"
  | .bool b => if b then js "true" else js "false"
  | .num q => H.numerals.text q
  | .infinite => js "Infinity"
  | .str s => s
  | .arr items => textItems true items
  | .obj _ => js "[object Object]"

/-- The items of an array as `String` joins them: `null` is written as nothing. -/
def textItems (first : Bool) : List Json → JsString
  | [] => []
  | x :: items =>
    (if first then [] else [44]) ++ (match x with | .null => [] | x => text x) ++
      textItems false items

end

/-- `schemaKeys` -/
def schemaKeys : List JsString :=
  ["type", "properties", "required", "additionalProperties", "items", "maxItems", "maxLength",
    "minimum", "maximum"].map js

/-- The names of the types. -/
def typeNames : List JsString :=
  ["object", "array", "string", "number", "integer", "boolean", "null"].map js

/-- `Number.isSafeInteger(value) && value >= 0 && value <= bound`, for a small bound. -/
def isBound (bound : ℕ) : Json → Bool
  | .num q => q.den == 1 && 0 ≤ q.num && q.num ≤ bound
  | _ => false

/-- `item.type === name` -/
def hasType (name : String) (x : Json) : Bool :=
  match x.prop "type" with
  | some (.str t) => t == js name
  | _ => false

/-- A value that may be `undefined`. -/
def absentOr (p : Json → Bool) : Option Json → Bool
  | none => true
  | some x => p x

/-- `typeof value === 'number' && Number.isFinite(value)` -/
def isNumber : Json → Bool
  | .num _ => true
  | _ => false

/-- `item.required`: an array of different names of properties. -/
def isRequired (names : List JsString) : Json → Bool
  | .arr required =>
    (required.all fun name => match name with | .str s => names.contains s | _ => false) &&
      (required.filterMap asStr).Nodup
  | _ => false

/-- `isSchema(value, depth)`, with `9 - depth` levels left. -/
def isSchemaAt : ℕ → Json → Bool
  | 0, _ => false
  | _, .null | _, .bool _ | _, .num _ | _, .infinite | _, .str _ | _, .arr _ => false
  | levels + 1, .obj item =>
    let schema := obj item
    let known := item.all fun entry => schemaKeys.contains entry.1
    let typed := match schema.prop "type" with
      | some t => typeNames.contains (text H t)
      | none => false
    let object :=
      if schema.hasType "object" then
        (match schema.prop "additionalProperties" with | some (.bool false) => true | _ => false) &&
        match schema.prop "properties" with
        | some (.obj properties) =>
          decide (properties.length ≤ 50) &&
          (properties.all fun entry =>
            entry.1 != [] && decide (entry.1.length ≤ 80) && isSchemaAt levels entry.2) &&
          absentOr (isRequired (properties.map Prod.fst)) (schema.prop "required")
        | _ => false
      else
        (schema.prop "properties").isNone && (schema.prop "required").isNone &&
          (schema.prop "additionalProperties").isNone
    let array :=
      if schema.hasType "array" then
        (match schema.prop "items" with | some x => isSchemaAt levels x | none => false) &&
          (match schema.prop "maxItems" with | some n => isBound 1000 n | none => false)
      else (schema.prop "items").isNone && (schema.prop "maxItems").isNone
    let length :=
      absentOr (fun n => schema.hasType "string" && isBound 65536 n) (schema.prop "maxLength")
    let numeric := schema.hasType "number" || schema.hasType "integer"
    let bounds :=
      absentOr (fun n => isNumber n && numeric) (schema.prop "minimum") &&
        absentOr (fun n => isNumber n && numeric) (schema.prop "maximum")
    let ordered := match schema.prop "minimum", schema.prop "maximum" with
      | some (.num low), some (.num high) => decide (low ≤ high)
      | _, _ => true
    known && typed && object && array && length && bounds && ordered

/-- `isSchema(value)` -/
def isSchema (x : Json) : Bool := isSchemaAt H 9 x

mutual

/-- `matchesSchema(value, schema)` -/
def matchesSchema : (value schema : Json) → Bool
  | .null, schema => schema.hasType "null"
  | .bool _, schema => schema.hasType "boolean"
  | .str s, schema =>
    schema.hasType "string" &&
      absentOr (fun n => match n with | .num q => decide ((s.length : ℚ) ≤ q) | _ => false)
        (schema.prop "maxLength")
  | .num q, schema =>
    (schema.hasType "number" || schema.hasType "integer" && q.den == 1) &&
      absentOr (fun n => match n with | .num low => decide (low ≤ q) | _ => false)
        (schema.prop "minimum") &&
      absentOr (fun n => match n with | .num high => decide (q ≤ high) | _ => false)
        (schema.prop "maximum")
  | .infinite, _ => false
  | .arr items, schema =>
    schema.hasType "array" &&
      absentOr (fun n => match n with | .num q => decide ((items.length : ℚ) ≤ q) | _ => false)
        (schema.prop "maxItems") &&
      match schema.prop "items" with
      | some child => matchesItems items child
      | none => false
  | .obj record, schema =>
    schema.hasType "object" &&
      (match schema.prop "required" with
      | some (.arr required) => required.all fun name =>
        match name with | .str key => (get key record).isSome | _ => false
      | _ => true) &&
      match schema.prop "properties" with
      | some (.obj properties) => matchesFields record properties
      | _ => false

/-- Every item matches the schema. -/
def matchesItems : (items : List Json) → (schema : Json) → Bool
  | [], _ => true
  | x :: items, schema => matchesSchema x schema && matchesItems items schema

/-- Every property is known and matches its schema. -/
def matchesFields : (record properties : List (JsString × Json)) → Bool
  | [], _ => true
  | (key, x) :: record, properties =>
    (match get key properties with | some child => matchesSchema x child | none => false) &&
      matchesFields record properties

end

/-- `validateSchemaValue(value, schema, limit)` -/
def validateSchemaValue (x schema : Json) (limit : ℕ) : Except JsError Unit := do
  assertJson H x limit
  if !isSchema H schema then .error .zod
  if !matchesSchema x schema then JsError.raise "JSON value does not match service schema"

variable {H} {x schema : Json} {limit limit' : ℕ}

/-- A larger limit accepts more. -/
theorem assertJson_mono (hle : limit ≤ limit') (h : assertJson H x limit = .ok ()) :
    assertJson H x limit' = .ok () := by
  simp only [assertJson, JsError.raise, bind_eq_ok, JsError.throwIf_end] at h ⊢
  obtain ⟨_, hvisit, hlength⟩ := h
  exact ⟨_, hvisit, by omega⟩

theorem validateSchemaValue_ok : validateSchemaValue H x schema limit = .ok () ↔
    assertJson H x limit = .ok () ∧ isSchema H schema = true ∧ matchesSchema x schema = true := by
  simp only [validateSchemaValue, JsError.raise, bind_eq_ok, JsError.throwIf_eq_ok,
    JsError.throwIf_end, Bool.not_eq_true', Bool.not_eq_false]
  constructor
  · rintro ⟨_, h⟩; exact h
  · intro h; exact ⟨_, h⟩

end Json

end Obolos
