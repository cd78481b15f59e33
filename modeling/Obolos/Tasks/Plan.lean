import Obolos.Economy.ServiceContract
import Obolos.Js.BigInt

/-!
# Task plans

`tasks/model.ts`: a plan is a list of steps, each the input of one registered service.  An input is
a template: in place of a value it may have a reference `{$from, path}` to the output of an earlier
step.  `createTaskPlan` checks a plan before anything is paid, and `resolveTaskInput` puts the
outputs in.
-/

namespace Obolos

namespace Tasks

open Json

/-! ### References -/

/-- An entry of a path. -/
inductive Key
  | name (s : JsString)
  | index (n : ℕ)
  deriving DecidableEq

/-- The property it names. -/
def Key.text : Key → JsString
  | .name s => s
  | .index n => JsString.decimal n

/-- `forbiddenKeys` -/
def forbiddenKeys : List JsString := ["__proto__", "prototype", "constructor"].map js

/-- `Number.isSafeInteger(value) && value >= 0` -/
def readIndex : Json → Option ℕ
  | .num q => if q.den = 1 ∧ 0 ≤ q.num ∧ q.num < 2 ^ 53 then some q.num.toNat else none
  | _ => none

/-- An entry of `path`. -/
def readKey : Json → Option Key
  | .str s => if s ≠ [] ∧ s ∉ forbiddenKeys then some (.name s) else none
  | x => (readIndex x).map .index

/-- The step and the path of a record that has `$from`. -/
def readReference (record : List (JsString × Json)) : Option (ℕ × List Key) :=
  if record.length ≠ 2 then none
  else
    match (get (js "$from") record).bind readIndex, get (js "path") record with
    | some step, some (.arr path) =>
      if path.length > 12 then none else (path.mapM readKey).map fun keys => (step, keys)
    | _, _ => none

/-- How a reference is resolved. -/
abbrev Resolve := ℕ → List Key → Except JsError Json

mutual

/-- `mapInput(value, resolve)` -/
def mapInput (resolve : Resolve) : Json → Except JsError Json
  | .arr items => .arr <$> mapItems resolve items
  | .obj record =>
    if record.any fun entry => forbiddenKeys.contains entry.1 then JsError.raise "Unsafe input key"
    else if (get (js "$from") record).isSome then
      match readReference record with
      | some (step, path) => resolve step path
      | none => JsError.raise "Invalid output reference"
    else .obj <$> mapFields resolve record
  | .null => .ok .null
  | .bool b => .ok (.bool b)
  | .num q => .ok (.num q)
  | .infinite => .ok .infinite
  | .str s => .ok (.str s)

/-- `mapInput` for every item. -/
def mapItems (resolve : Resolve) : List Json → Except JsError (List Json)
  | [] => .ok []
  | x :: items => do
    let y ← mapInput resolve x
    let rest ← mapItems resolve items
    return y :: rest

/-- `mapInput` for every field. -/
def mapFields (resolve : Resolve) :
    List (JsString × Json) → Except JsError (List (JsString × Json))
  | [] => .ok []
  | (key, x) :: record => do
    let y ← mapInput resolve x
    let rest ← mapFields resolve record
    return (key, y) :: rest

end

/-! ### Resolving -/

/-- `value[key]`, when `value` is an object that has the key. -/
def own (key : Key) : Json → Option Json
  | .obj record => get key.text record
  | .arr items =>
    if key.text = js "length" then some (.num items.length)
    else ((List.range items.length).find? fun n => JsString.decimal n = key.text).bind (items[·]?)
  | _ => none

/-- The loop of `resolveTaskInput` over a path. -/
def follow (value : Json) : List Key → Except JsError Json
  | [] => .ok value
  | key :: path =>
    match own key value with
    | some child => follow child path
    | none => JsError.raise "Output reference path is missing"

/-- The value that a reference means. -/
def lookUp (outputs : List Json) : Resolve := fun step path =>
  match outputs[step]? with
  | some output => follow output path
  | none => JsError.raise "Output reference must identify an earlier completed step"

variable (H : Host)

/-- The callback of `resolveTaskInput`. -/
def resolveOutput (outputs : List Json) : Resolve := fun step path => do
  let value ← lookUp outputs step path
  let _ ← value.canonicalJsonHash H
  return value

/-- `resolveTaskInput(template, outputs)` -/
def resolveTaskInput (template : Json) (outputs : List Json) : Except JsError Json := do
  let _ ← template.canonicalJsonHash H
  mapInput (resolveOutput H outputs) template

/-! ### Checking a plan -/

/-- `schema.required?.includes(key)` -/
def requires (key : JsString) (schema : Json) : Bool :=
  match schema.prop "required" with
  | some (.arr names) => names.any fun name => match name with | .str s => s == key | _ => false
  | _ => false

/-- `schema.properties` -/
def properties (schema : Json) : List (JsString × Json) :=
  ((schema.prop "properties").bind asObj).getD []

/-- `schemaAtPath(schema, path)` -/
def schemaAtPath (schema : Json) : List Key → Except JsError Json
  | [] => .ok schema
  | .name key :: path =>
    match get key (properties schema) with
    | some child =>
      if schema.hasType "object" && requires key schema then schemaAtPath child path
      else JsError.raise "Reference path is not present in the earlier output schema"
    | none => JsError.raise "Reference path is not present in the earlier output schema"
  | .index _ :: _ => JsError.raise "Reference path is not present in the earlier output schema"

/-- `source.type === target.type || source.type === 'integer' && target.type === 'number'` -/
def compatibleType (source target : Json) : Bool :=
  (match source.prop "type", target.prop "type" with
    | some (.str a), some (.str b) => a == b
    | _, _ => false) ||
  (source.hasType "integer" && target.hasType "number")

/-- A bound of the target schema is one of the source schema, up to `le`. -/
def compatibleBound (le : ℚ → ℚ → Bool) (source target : Option Json) : Bool :=
  match source, target with
  | _, none => true
  | some (.num a), some (.num b) => le a b
  | _, _ => false

/-- `compatibleSchema(source, target)`, with this many levels of the source schema left. -/
def compatibleAt : ℕ → (source target : Json) → Bool
  | 0, _, _ => false
  | levels + 1, source, target =>
    compatibleType source target &&
      compatibleBound (fun a b => a ≤ b) (source.prop "maxLength") (target.prop "maxLength") &&
      compatibleBound (fun a b => b ≤ a) (source.prop "minimum") (target.prop "minimum") &&
      compatibleBound (fun a b => a ≤ b) (source.prop "maximum") (target.prop "maximum") &&
      if target.hasType "array" then
        compatibleBound (fun a b => a ≤ b) (source.prop "maxItems") (target.prop "maxItems") &&
          match source.prop "items", target.prop "items" with
          | some s, some t => compatibleAt levels s t
          | _, _ => false
      else if target.hasType "object" then
        (match target.prop "required" with
          | some (.arr names) => names.all fun name =>
            match name with | .str key => requires key source | _ => false
          | _ => true) &&
          (properties source).all fun entry =>
            match get entry.1 (properties target) with
            | some child => compatibleAt levels entry.2 child
            | none => false
      else true

/-- `compatibleSchema(source, target)`: a schema has at most nine levels. -/
def compatibleSchema (source target : Json) : Bool := compatibleAt 9 source target

/-- The callback of `validateTemplate`: the referenced output fits the schema. -/
def checkReference (schema : Json) (earlier : List ServiceDefinition) : Resolve :=
  fun step path =>
    match earlier[step]? with
    | none => JsError.raise "Output references must identify earlier steps"
    | some definition => do
      let found ← schemaAtPath definition.outputSchema path
      if !compatibleSchema found schema then
        JsError.raise "Referenced output schema does not fit the service input"
      return .null

mutual

/-- `validateTemplate(value, schema, earlier)` -/
def validateTemplate (earlier : List ServiceDefinition) :
    (value schema : Json) → Except JsError Unit
  | .obj record, schema =>
    if (get (js "$from") record).isSome then do
      let _ ← mapInput (checkReference schema earlier) (.obj record)
    else if schema.hasType "object" then
      if (match schema.prop "required" with
          | some (.arr names) => names.any fun name =>
            match name with | .str key => (get key record).isNone | _ => true
          | _ => false) then
        JsError.raise "Required service input is missing"
      else validateFields earlier record (properties schema)
    else (Json.obj record).validateSchemaValue H schema (64 * 1024)
  | .arr items, schema =>
    if schema.hasType "array" then
      if !compatibleBound (fun a b => a ≤ b) (some (.num items.length)) (schema.prop "maxItems") then
        JsError.raise "Input array exceeds service schema"
      else validateItems earlier items ((schema.prop "items").getD .null)
    else (Json.arr items).validateSchemaValue H schema (64 * 1024)
  | .null, schema => Json.null.validateSchemaValue H schema (64 * 1024)
  | .bool b, schema => (Json.bool b).validateSchemaValue H schema (64 * 1024)
  | .num q, schema => (Json.num q).validateSchemaValue H schema (64 * 1024)
  | .infinite, schema => Json.infinite.validateSchemaValue H schema (64 * 1024)
  | .str s, schema => (Json.str s).validateSchemaValue H schema (64 * 1024)

/-- `validateTemplate` for every item. -/
def validateItems (earlier : List ServiceDefinition) :
    (items : List Json) → (schema : Json) → Except JsError Unit
  | [], _ => .ok ()
  | x :: items, schema => do
    validateTemplate earlier x schema
    validateItems earlier items schema

/-- `validateTemplate` for every field. -/
def validateFields (earlier : List ServiceDefinition) :
    (record properties : List (JsString × Json)) → Except JsError Unit
  | [], _ => .ok ()
  | (key, x) :: record, properties =>
    match get key properties with
    | some child =>
      if forbiddenKeys.contains key then JsError.raise "Unknown service input field"
      else do
        validateTemplate earlier x child
        validateFields earlier record properties
    | none => JsError.raise "Unknown service input field"

end

/-! ### Creating a plan -/

/-- A step of `rawPlan`. -/
structure RawStep where
  serviceHash : JsString
  input : Json

/-- A step of a plan; its `serviceHash` is the one of the definition. -/
structure TaskStep where
  definition : ServiceDefinition
  input : Json

/-- `TaskPlan` -/
structure TaskPlan where
  summary : JsString
  steps : List TaskStep
  totalAtomic : ℕ

/-- A step of `rawPlan.parse(value)`. -/
def readStep (x : Json) : Except JsError RawStep := do
  let fields ← strictFields ["serviceHash", "input"] x
  let serviceHash ← textField
    (fun s => if (readBytes32 s).isSome then some s else none) "serviceHash" fields
  let input ← field some "input" fields
  return { serviceHash, input }

/-- `rawPlan.parse(value)` -/
def readPlan (x : Json) : Except JsError (JsString × List RawStep) := do
  let fields ← strictFields ["summary", "steps"] x
  let summary ← textField (fun s =>
    if 1 ≤ s.trim.length ∧ s.trim.length ≤ 2000 then some s.trim else none) "summary" fields
  let steps ← field asArr "steps" fields
  if steps.length = 0 ∨ steps.length > 5 then .error .zod
  return (summary, ← steps.mapM readStep)

/-- `taskAtomicSchema.parse(value)` -/
def readBudget (s : JsString) : Except JsError ℕ :=
  match readPositive s with
  | some n => if s.length ≤ 78 ∧ n < 2 ^ 256 then .ok n else .error .zod
  | none => .error .zod

/-- `services.find(service => service.serviceHash.toLowerCase() === hash.toLowerCase())` -/
def findService (hash : JsString) : (services : List Json) → Except JsError (Option Json)
  | [] => .ok none
  | service :: services =>
    match service.prop "serviceHash" with
    | some (.str s) =>
      if s.toLowerCase = hash.toLowerCase then .ok (some service) else findService hash services
    | _ => .error .other

/-- The loop of `createTaskPlan` over the steps. -/
def planSteps (services : List Json) (budget : ℕ) :
    (steps : List RawStep) → (definitions : List ServiceDefinition) → (total : ℕ) →
      Except JsError (List TaskStep × ℕ)
  | [], _, total => .ok ([], total)
  | step :: steps, definitions, total => do
    match ← findService step.serviceHash services with
    | none => JsError.raise "Plan names an unregistered or unavailable service"
    | some registered => do
      let definition ← ServiceDefinition.validate H registered
      validateTemplate H definitions step.input definition.inputSchema
      if total + definition.amount > budget then JsError.raise "Plan exceeds the task budget"
      let (rest, total) ←
        planSteps services budget steps (definitions ++ [definition]) (total + definition.amount)
      return (⟨definition, step.input⟩ :: rest, total)

/-- `createTaskPlan(value, services, budgetAtomic)` -/
def createTaskPlan (value : Json) (services : List Json) (budgetAtomic : JsString) :
    Except JsError TaskPlan := do
  let budget ← readBudget budgetAtomic
  let (summary, raw) ← readPlan value
  let _ ← value.canonicalJsonHash H
  let (steps, totalAtomic) ← planSteps H services budget raw [] 0
  return { summary, steps, totalAtomic }

end Tasks

end Obolos
