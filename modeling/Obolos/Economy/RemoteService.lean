import Obolos.Economy.CanonicalJson
import Obolos.Economy.ServiceContract

/-!
# What a provider may answer

`remote-service.ts`: the output of a paid service is accepted when the answer names the order, the
service and the input, carries the hash of the output, and the output matches the schema of the
service.
-/

namespace Obolos

/-- `ServiceResponse` -/
structure ServiceResponse where
  orderId : Bytes32
  serviceHash : Bytes32
  inputHash : Bytes32
  outputHash : Bytes32
  output : Json

namespace ServiceResponse

/-- `serviceResponseSchema.parse(value)`.  A missing `output` is refused by `canonicalJsonHash` in
the source, and here already. -/
def parse (x : Json) : Except JsError ServiceResponse := do
  let fields ← Json.strictFields
    ["protocol", "orderId", "serviceHash", "inputHash", "outputHash", "output"] x
  Json.literalField serviceProtocol "protocol" fields
  let orderId ← Json.textField readBytes32 "orderId" fields
  let serviceHash ← Json.textField readBytes32 "serviceHash" fields
  let inputHash ← Json.textField readBytes32 "inputHash" fields
  let outputHash ← Json.textField readBytes32 "outputHash" fields
  let output ← Json.field some "output" fields
  return { orderId, serviceHash, inputHash, outputHash, output }

/-- `responseLimit` -/
def responseLimit : ℕ := 128 * 1024

variable (H : Host) (service : ServiceDefinition) (request : ServiceRequest)

/-- The end of a response with this body, in `requestRemoteService`. -/
def accept (body : Json) : Except JsError ServiceResponse := do
  let result ← parse body
  if result.orderId ≠ request.orderId ∨ result.serviceHash ≠ service.serviceHash ∨
      result.inputHash ≠ request.inputHash then
    .error .other
  if result.outputHash ≠ (← result.output.canonicalJsonHash H) then .error .other
  result.output.validateSchemaValue H service.outputSchema responseLimit
  return result

/-- An answer as a JSON value. -/
def json (response : ServiceResponse) : Json :=
  .obj
    [(js "protocol", .str (js serviceProtocol)),
      (js "orderId", .str response.orderId.text),
      (js "serviceHash", .str response.serviceHash.text),
      (js "inputHash", .str response.inputHash.text),
      (js "outputHash", .str response.outputHash.text),
      (js "output", response.output)]

variable {H service request} {body : Json} {result : ServiceResponse}

/-- Parsing an answer again changes nothing. -/
theorem parse_json (response : ServiceResponse) : parse response.json = .ok response := by
  simp [parse, json, bind, Except.bind, pure, Except.pure, Json.strictFields, Json.literalField,
    Json.textField, Json.field, Json.get, Json.asStr, readBytes32_text]

/-- The output of an answer is a part of it. -/
theorem distinct_of_parse (h : parse body = .ok result) (hbody : body.Distinct) :
    result.output.Distinct := by
  simp only [parse, bind_eq_ok, pure_eq_ok] at h
  obtain ⟨fields, hfields, -, -, _, -, _, -, _, -, _, -, x, hx, rfl⟩ := h
  have hget : Json.get (js "output") fields = some x := by simpa using Json.field_ok.1 hx
  cases hbody with
  | obj nodup fields_distinct =>
    rename_i fields'
    obtain rfl : fields' = fields := by
      rw [Json.strictFields] at hfields
      split_ifs at hfields
      exact Except.ok.inj hfields
    exact fields_distinct _ (Json.mem_of_get hget)
  | _ => cases hfields

/-- An accepted answer is bound to the request, and its output has its hash and its schema. -/
theorem accept_ok : accept H service request body = .ok result ↔
    parse body = .ok result ∧
      (result.orderId = request.orderId ∧ result.serviceHash = service.serviceHash ∧
        result.inputHash = request.inputHash) ∧
      result.output.canonicalJsonHash H = .ok result.outputHash ∧
      result.output.validateSchemaValue H service.outputSchema responseLimit = .ok () := by
  simp only [accept, bind_eq_ok, JsError.throwIf_eq_ok, pure_eq_ok, not_or, not_not]
  constructor
  · rintro ⟨v, hv, hbound, h, hhash, rfl, _, hschema, rfl⟩
    exact ⟨hv, hbound, hhash, hschema⟩
  · rintro ⟨hv, hbound, hhash, hschema⟩
    exact ⟨_, hv, hbound, _, hhash, rfl, _, hschema, rfl⟩

end ServiceResponse

end Obolos
