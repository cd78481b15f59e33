import Obolos.Economy.Schema

/-!
# Service definitions and requests

The second half of `service-contract.ts`: the immutable terms of a service with their hash, and
the request a buyer sends for a paid order of it.
-/

namespace Obolos

/-- `resourceCategories` -/
inductive ResourceCategory
  | data | compute | inference | verification | storage
  deriving DecidableEq, Repr

namespace ResourceCategory

/-- The name of the category. -/
def text : ResourceCategory → JsString
  | data => js "data"
  | compute => js "compute"
  | inference => js "inference"
  | verification => js "verification"
  | storage => js "storage"

/-- `resourceCategories.indexOf(category)` -/
def index : ResourceCategory → ℕ
  | data => 0
  | compute => 1
  | inference => 2
  | verification => 3
  | storage => 4

/-- `z.enum(resourceCategories)` -/
def read (s : JsString) : Option ResourceCategory :=
  [data, compute, inference, verification, storage].find? fun c => c.text = s

theorem index_inj {c d : ResourceCategory} (h : c.index = d.index) : c = d := by
  cases c <;> cases d <;> first | rfl | cases h

theorem read_text (c : ResourceCategory) : read c.text = some c := by
  cases c <;> simp [read, text]

/-- `normalizedUnits[category]` -/
def normalizedUnits : ResourceCategory → List JsString
  | data => [js "source-record"]
  | compute => [js "compute-unit"]
  | inference => [js "inference-request"]
  | verification => [js "verification-job"]
  | storage => [js "gigabyte-hour", js "stored-object-hour"]

end ResourceCategory

/-- The chain id of Arc testnet: `chainId` in every definition, request and receipt. -/
def chainId : ℕ := 5042002

/-- `SERVICE_PROTOCOL` -/
def serviceProtocol : String := "obolos.service.v1"

/-- `serviceBase`: the terms of a service. -/
structure ServiceTerms where
  settlementAddress : Address
  ledgerAddress : Address
  seller : Address
  endpoint : JsString
  category : ResourceCategory
  unit : JsString
  quantity : ℕ
  unitPriceAtomic : ℕ
  inputSchema : Json
  outputSchema : Json

/-- `ServiceDefinition` -/
structure ServiceDefinition extends ServiceTerms where
  serviceHash : Bytes32

namespace ServiceTerms

variable (H : Host)

/-- The keys of `serviceBase`. -/
def keys : List String :=
  ["chainId", "settlementAddress", "ledgerAddress", "seller", "endpoint", "category", "unit",
    "quantity", "unitPriceAtomic", "inputSchema", "outputSchema"]

/-- The fields of `serviceBase`. -/
def readFields (fields : List (JsString × Json)) : Except JsError ServiceTerms := do
  Json.field (fun x => match x with | .num q => if q = chainId then some () else none | _ => none)
    "chainId" fields
  let settlementAddress ← Json.textField (readAddress H) "settlementAddress" fields
  let ledgerAddress ← Json.textField (readAddress H) "ledgerAddress" fields
  let seller ← Json.textField (readAddress H) "seller" fields
  let endpoint ← Json.textField (readUrl H) "endpoint" fields
  let category ← Json.textField ResourceCategory.read "category" fields
  let unit ← Json.textField
    (fun s => if 1 ≤ s.length ∧ s.length ≤ 80 then some s else none) "unit" fields
  let quantity ← Json.textField readPositive "quantity" fields
  let unitPriceAtomic ← Json.textField readPositive "unitPriceAtomic" fields
  let inputSchema ← Json.field (fun x => if x.isSchema H then some x else none)
    "inputSchema" fields
  let outputSchema ← Json.field (fun x => if x.isSchema H then some x else none)
    "outputSchema" fields
  return { settlementAddress, ledgerAddress, seller, endpoint, category, unit, quantity,
           unitPriceAtomic, inputSchema, outputSchema }

variable (terms : ServiceTerms)

/-- What an order for the service pays: `BigInt(quantity) * BigInt(unitPriceAtomic)`. -/
def amount : ℕ := terms.quantity * terms.unitPriceAtomic

/-- The terms as a JSON object. -/
def fields : List (JsString × Json) :=
  [(js "chainId", .num chainId),
    (js "settlementAddress", .str terms.settlementAddress.text),
    (js "ledgerAddress", .str terms.ledgerAddress.text),
    (js "seller", .str terms.seller.text),
    (js "endpoint", .str terms.endpoint),
    (js "category", .str terms.category.text),
    (js "unit", .str terms.unit),
    (js "quantity", .str (JsString.decimal terms.quantity)),
    (js "unitPriceAtomic", .str (JsString.decimal terms.unitPriceAtomic)),
    (js "inputSchema", terms.inputSchema),
    (js "outputSchema", terms.outputSchema)]

/-- The words under the service hash. -/
def words : List ℕ :=
  [chainId, terms.settlementAddress.toNat, terms.seller.toNat, terms.category.index,
    (H.textHash terms.unit).toNat, terms.quantity, terms.unitPriceAtomic,
    (H.textHash terms.endpoint).toNat]

/-- `createServiceDefinition(terms)` for terms that `serviceBase` has parsed; parsing them again
changes nothing.  Encoding a number that does not fit into 256 bits throws. -/
def createServiceDefinition : Except JsError ServiceDefinition := do
  if !terms.category.normalizedUnits.contains terms.unit then
    JsError.raise "Unit does not match service category"
  if (H.url terms.endpoint).map Url.href ≠ some terms.endpoint then
    JsError.raise "Endpoint must be canonical"
  if terms.quantity ≥ 2 ^ 256 ∨ terms.unitPriceAtomic ≥ 2 ^ 256 then .error .other
  return { terms with serviceHash := H.wordsHash (terms.words H) }

end ServiceTerms

namespace ServiceDefinition

variable (H : Host)

/-- `serviceDefinitionSchema.parse(value)` -/
def parse (x : Json) : Except JsError ServiceDefinition := do
  let fields ← Json.strictFields (ServiceTerms.keys ++ ["protocol", "serviceHash"]) x
  let terms ← ServiceTerms.readFields H fields
  Json.literalField serviceProtocol "protocol" fields
  let serviceHash ← Json.textField readBytes32 "serviceHash" fields
  return { terms with serviceHash }

/-- The check of `validateServiceDefinition` on a parsed definition. -/
def check (service : ServiceDefinition) : Except JsError Unit := do
  let created ← service.createServiceDefinition H
  if created.serviceHash ≠ service.serviceHash then
    JsError.raise "Service hash does not match immutable service terms"

variable {H} in
/-- What `createServiceDefinition` has checked when the hash is the one of the definition. -/
theorem check_ok {service : ServiceDefinition} :
    service.check H = .ok () ↔ service.unit ∈ service.category.normalizedUnits ∧
      (H.url service.endpoint).map Url.href = some service.endpoint ∧
      service.quantity < 2 ^ 256 ∧ service.unitPriceAtomic < 2 ^ 256 ∧
      H.wordsHash (service.words H) = service.serviceHash := by
  simp only [check, ServiceTerms.createServiceDefinition, JsError.raise, bind_eq_ok,
    JsError.throwIf_eq_ok, JsError.throwIf_end, pure_eq_ok, not_or, not_not, not_le, ge_iff_le]
  constructor
  · rintro ⟨v, ⟨hunit, hurl, ⟨hquantity, hprice⟩, rfl⟩, hhash⟩
    exact ⟨by simpa using hunit, hurl, hquantity, hprice, hhash⟩
  · rintro ⟨hunit, hurl, hquantity, hprice, hhash⟩
    exact ⟨_, ⟨by simpa using hunit, hurl, ⟨hquantity, hprice⟩, rfl⟩, hhash⟩

/-- `validateServiceDefinition(value)` -/
def validate (x : Json) : Except JsError ServiceDefinition := do
  let parsed ← parse H x
  parsed.check H
  return parsed

/-- A definition as a JSON value. -/
def json (service : ServiceDefinition) : Json :=
  .obj (service.fields ++
    [(js "protocol", .str (js serviceProtocol)),
      (js "serviceHash", .str service.serviceHash.text)])

end ServiceDefinition

/-- `ServiceRequest` -/
structure ServiceRequest where
  orderId : Bytes32
  agentId : Bytes32
  payer : Address
  serviceHash : Bytes32
  inputHash : Bytes32
  category : ResourceCategory
  unit : JsString
  quantity : ℕ
  unitPriceAtomic : ℕ
  amountAtomic : ℕ
  settlementAddress : Address
  ledgerAddress : Address
  transactionHash : Bytes32
  input : Json

namespace ServiceRequest

variable (H : Host) (request : ServiceRequest)

/-- A request as a JSON value. -/
def json : Json :=
  .obj
    [(js "protocol", .str (js serviceProtocol)),
      (js "orderId", .str request.orderId.text),
      (js "agentId", .str request.agentId.text),
      (js "payer", .str request.payer.text),
      (js "serviceHash", .str request.serviceHash.text),
      (js "inputHash", .str request.inputHash.text),
      (js "category", .str request.category.text),
      (js "unit", .str request.unit),
      (js "quantity", .str (JsString.decimal request.quantity)),
      (js "unitPriceAtomic", .str (JsString.decimal request.unitPriceAtomic)),
      (js "amountAtomic", .str (JsString.decimal request.amountAtomic)),
      (js "settlement", .obj
        [(js "chainId", .num chainId),
          (js "address", .str request.settlementAddress.text),
          (js "ledgerAddress", .str request.ledgerAddress.text),
          (js "transactionHash", .str request.transactionHash.text)]),
      (js "input", request.input)]

/-- `serviceRequestSchema.parse(value)`.  A missing `input` is refused by `canonicalJsonHash` in the
source, and here already. -/
def parse (x : Json) : Except JsError ServiceRequest := do
  let fields ← Json.strictFields ["protocol", "orderId", "agentId", "payer", "serviceHash",
    "inputHash", "category", "unit", "quantity", "unitPriceAtomic", "amountAtomic", "settlement",
    "input"] x
  Json.literalField serviceProtocol "protocol" fields
  let orderId ← Json.textField readBytes32 "orderId" fields
  let agentId ← Json.textField readBytes32 "agentId" fields
  let payer ← Json.textField (readAddress H) "payer" fields
  let serviceHash ← Json.textField readBytes32 "serviceHash" fields
  let inputHash ← Json.textField readBytes32 "inputHash" fields
  let category ← Json.textField ResourceCategory.read "category" fields
  let unit ← Json.textField some "unit" fields
  let quantity ← Json.textField readPositive "quantity" fields
  let unitPriceAtomic ← Json.textField readPositive "unitPriceAtomic" fields
  let amountAtomic ← Json.textField readPositive "amountAtomic" fields
  let settlement ← Json.field some "settlement" fields
  let proof ← Json.strictFields ["chainId", "address", "ledgerAddress", "transactionHash"]
    settlement
  Json.field (fun x => match x with | .num q => if q = chainId then some () else none | _ => none)
    "chainId" proof
  let settlementAddress ← Json.textField (readAddress H) "address" proof
  let ledgerAddress ← Json.textField (readAddress H) "ledgerAddress" proof
  let transactionHash ← Json.textField readBytes32 "transactionHash" proof
  let input ← Json.field some "input" fields
  return { orderId, agentId, payer, serviceHash, inputHash, category, unit, quantity,
           unitPriceAtomic, amountAtomic, settlementAddress, ledgerAddress, transactionHash, input }

/-- `validateServiceRequest(service, request)` on a parsed request. -/
def check (service : ServiceDefinition) : Except JsError Unit := do
  if request.serviceHash ≠ service.serviceHash ∨ request.category ≠ service.category ∨
      request.unit ≠ service.unit ∨ request.quantity ≠ service.quantity ∨
      request.unitPriceAtomic ≠ service.unitPriceAtomic ∨
      request.amountAtomic ≠ request.quantity * request.unitPriceAtomic ∨
      request.settlementAddress ≠ service.settlementAddress ∨
      request.ledgerAddress ≠ service.ledgerAddress then
    JsError.raise "Service request does not match immutable order terms"
  if request.inputHash ≠ (← request.input.canonicalJsonHash H) then
    JsError.raise "Service request does not match immutable order terms"
  request.input.validateSchemaValue H service.inputSchema (64 * 1024)

variable {H request} in
/-- The terms of an accepted request are those of the definition. -/
theorem check_ok {service : ServiceDefinition} :
    request.check H service = .ok () ↔
      (request.serviceHash = service.serviceHash ∧ request.category = service.category ∧
        request.unit = service.unit ∧ request.quantity = service.quantity ∧
        request.unitPriceAtomic = service.unitPriceAtomic ∧
        request.amountAtomic = request.quantity * request.unitPriceAtomic ∧
        request.settlementAddress = service.settlementAddress ∧
        request.ledgerAddress = service.ledgerAddress) ∧
      request.input.canonicalJsonHash H = .ok request.inputHash ∧
      request.input.validateSchemaValue H service.inputSchema (64 * 1024) = .ok () := by
  simp only [check, JsError.raise, JsError.throwIf_eq_ok, bind_eq_ok, not_or, not_not]
  refine and_congr_right fun _ => ?_
  constructor
  · rintro ⟨v, hhash, rfl, hschema⟩
    exact ⟨hhash, hschema⟩
  · rintro ⟨hhash, hschema⟩
    exact ⟨_, hhash, rfl, hschema⟩

/-- `validateServiceRequest(service, value)` -/
def validate (service : ServiceDefinition) (x : Json) : Except JsError ServiceRequest := do
  let request ← parse H x
  request.check H service
  return request

variable {H request}

/-- What a parsed request looks like: its amounts are positive, and its addresses are addresses. -/
structure Parsed (H : Host) (request : ServiceRequest) : Prop where
  payer : H.isAddress request.payer.text = true
  settlementAddress : H.isAddress request.settlementAddress.text = true
  ledgerAddress : H.isAddress request.ledgerAddress.text = true
  quantity : 0 < request.quantity
  unitPriceAtomic : 0 < request.unitPriceAtomic
  amountAtomic : 0 < request.amountAtomic

/-- Parsing a request again changes nothing. -/
theorem parse_json (h : Parsed H request) : parse H request.json = .ok request := by
  simp [parse, json, bind, Except.bind, pure, Except.pure, Json.strictFields, Json.literalField, Json.textField, Json.field, Json.get,
    Json.asStr, readBytes32_text, readAddress_text h.payer, readAddress_text h.settlementAddress,
    readAddress_text h.ledgerAddress, readPositive_decimal h.quantity,
    readPositive_decimal h.unitPriceAtomic, readPositive_decimal h.amountAtomic,
    ResourceCategory.read_text]

end ServiceRequest

end Obolos
