import Obolos.Crash.System
import Obolos.Economy.OrderTable
import Obolos.Economy.RemoteService

/-!
# Orders and their delivery

The handlers of `marketplace.ts` that touch orders.  A paid order is recorded
(`createEconomyOrder`), delivered at once, and delivered again on request
(`retryEconomyDelivery`) as long as no attempt has succeeded.  An attempt calls the provider
(`requestRemoteService`) between two statements, and can be overtaken in between.
-/

namespace Obolos

namespace Marketplace

open Market (ServiceReceipt)

/-- What the handlers wait for. -/
inductive Effect
  -- the database
  /-- `SELECT * FROM economy_services WHERE service_hash=…`: the definition -/
  | selectService (serviceHash : Bytes32)
  /-- `SELECT id FROM platform_agents WHERE id=… AND user_id=…` -/
  | selectAgent (platformAgentId userId : JsString)
  | insertOrder (order : NewOrder)
  | selectOrder (orderId : Bytes32) (userId : JsString)
  | claimDelivery (orderId : Bytes32) (userId token : JsString)
  | completeDelivery (orderId : Bytes32) (userId token : JsString) (output : Json)
      (outputHash : Bytes32)
  | releaseDelivery (orderId : Bytes32) (userId token message : JsString)
  -- the chain
  /-- The owner of an agent, `d.readAgent(id)`. -/
  | readAgent (agentId : Bytes32)
  | getFinalizedReceipt (transactionHash : Bytes32)
  -- the provider
  | randomUUID
  /-- The request to the endpoint of the service: the body of a successful answer.  Everything
  else is an exception, also an endpoint or an address that is not allowed. -/
  | requestService (service : ServiceDefinition) (request : ServiceRequest)

/-- The answers. -/
abbrev Answer : Effect → Type
  | .selectService _ => Option Json
  | .selectAgent _ _ => Bool
  | .insertOrder _ => Option OrderRow
  | .selectOrder _ _ => Option OrderRow
  | .claimDelivery _ _ _ => Option OrderRow
  | .completeDelivery _ _ _ _ _ => Option OrderRow
  | .releaseDelivery _ _ _ _ => Unit
  | .readAgent _ => JsString
  | .getFinalizedReceipt _ => ServiceReceipt
  | .randomUUID => JsString
  | .requestService _ _ => Json

/-- Programs with these effects. -/
abbrev Exec (α : Type) := Prog Effect Answer ApiError α

/-- One effect. -/
def perform (o : Effect) : Exec (Answer o) := Prog.await o

/-- `throw fail(status, code, message)` -/
def fail {α : Type} (status : ℕ) (code message : String) : Exec α :=
  throw (.platform status (js code) (js message))

/-- Library code that may throw. -/
def check {α : Type} (x : Except JsError α) : Exec α := Prog.ofExcept (ApiError.lift x)

variable (H : Host)

/-! ### Delivery -/

/-- `requestRemoteService({service, request, receipt})` -/
def requestRemoteService (service : ServiceDefinition) (request : ServiceRequest)
    (receipt : ServiceReceipt) : Exec ServiceResponse := do
  check (service.check H)
  check (request.check H service)
  let _ ← check (request.verifyServiceSettlement H service receipt)
  let body ← perform (.requestService service request)
  match ServiceResponse.accept H service request body with
  | .ok result => return result
  | .error _ =>
    fail 502 "SERVICE_INVALID_RESPONSE" "The service returned invalid or unbound output."

/-- The `try` block of `deliverEconomyOrder`. -/
def attemptDelivery (userId : JsString) (orderId : Bytes32) (token : JsString) (row : OrderRow) :
    Exec (Option OrderRow) := do
  let service ← check (ServiceDefinition.validate H row.definition)
  let request ← check (ServiceRequest.parse H row.request)
  let result ← requestRemoteService H service request row.receipt
  perform (.completeDelivery orderId userId token result.output result.outputHash)

/-- The `catch` block of `deliverEconomyOrder`. -/
def deliveryFailed {α : Type} (userId : JsString) (orderId : Bytes32) (token : JsString) :
    Exec α := do
  perform (.releaseDelivery orderId userId token (js
    "Payment is finalized, but provider delivery did not complete. Retry this order; do not pay again."))
  fail 502 "DELIVERY_FAILED"
    "Payment is finalized, but provider delivery did not complete. Retry this order; do not pay again."

/-- `deliverEconomyOrder` after its claim was granted. -/
def deliverClaimed (userId : JsString) (orderId : Bytes32) (token : JsString) (row : OrderRow) :
    Exec PublicOrder := do
  let completed ← tryCatch (attemptDelivery H userId orderId token row) fun _ =>
    deliveryFailed userId orderId token
  match completed with
  | some row => return publicEconomyOrder row
  | none =>
    fail 409 "DELIVERY_PENDING" "Payment is preserved and another delivery attempt owns this order."

/-- `deliverEconomyOrder(userId, row)` -/
def deliverEconomyOrder (userId : JsString) (row : OrderRow) : Exec PublicOrder := do
  let orderId := row.orderId
  let token ← perform .randomUUID
  match ← perform (.claimDelivery orderId userId token) with
  | none =>
    fail 409 "DELIVERY_PENDING"
      "Payment is preserved and delivery is already in progress. Do not pay again."
  | some row => deliverClaimed H userId orderId token row

/-- `retryEconomyDelivery(userId, orderId)`; a text that is no order id is in no row. -/
def retryEconomyDelivery (userId orderId : JsString) : Exec PublicOrder := do
  match readBytes32 orderId.toLowerCase with
  | none => fail 404 "ORDER_NOT_FOUND" "Order not found."
  | some orderId => do
    match ← perform (.selectOrder orderId userId) with
    | none => fail 404 "ORDER_NOT_FOUND" "Order not found."
    | some row =>
      if row.state = .fulfilled then return publicEconomyOrder row
      else deliverEconomyOrder H userId row

/-! ### Recording a paid order -/

/-- `EconomyDeployment`, as far as it is compared. -/
structure EconomyDeployment where
  settlement : Address
  ledger : Address

/-- `createOrderInput.parse(value)` -/
def createOrderInput (x : Json) : Except JsError (JsString × ServiceRequest) := do
  let fields ← Json.strictFields ["platformAgentId", "request"] x
  let platformAgentId ← Json.textField (fun s => if H.isUuid s then some s else none)
    "platformAgentId" fields
  let request ← Json.field (fun x => (ServiceRequest.parse H x).toOption) "request" fields
  return (platformAgentId, request)

/-- `d.getFinalizedReceipt(…)` and `d.verifySettlement(…)`, in one `try` block. -/
def finalizedPayment (service : ServiceDefinition) (request : ServiceRequest) :
    Exec ServiceReceipt :=
  tryCatch
    (do
      let receipt ← perform (.getFinalizedReceipt request.transactionHash)
      let _ ← check (request.verifyServiceSettlement H service receipt)
      return receipt)
    fun _ => fail 409 "PAYMENT_NOT_FINALIZED" "A matching finalized Arc settlement is required."

/-- The service and the request of a new order, and the checks on them. -/
def checkTerms (deployment : EconomyDeployment) (user : User) (platformAgentId : JsString)
    (request : ServiceRequest) : Exec ServiceDefinition := do
  match ← perform (.selectService request.serviceHash) with
  | none => fail 404 "SERVICE_NOT_FOUND" "Service not found."
  | some definition => do
    let service ← check (ServiceDefinition.validate H definition)
    check (request.check H service)
    if service.settlementAddress ≠ deployment.settlement ∨
        service.ledgerAddress ≠ deployment.ledger then
      fail 409 "DEPLOYMENT_MISMATCH" "Service definition does not match the active Arc deployment."
    if H.textHash platformAgentId ≠ request.agentId then
      fail 403 "AGENT_ID_MISMATCH" "The platform agent does not match the on-chain agent ID."
    if !(← perform (.selectAgent platformAgentId user.id)) then
      fail 404 "AGENT_NOT_FOUND" "Agent not found."
    if (← perform (.readAgent request.agentId)).toLowerCase ≠ user.address.toLowerCase then
      fail 403 "AGENT_POLICY_MISMATCH"
        "The authenticated owner does not match the on-chain agent owner."
    return service

/-- The `INSERT` of `createEconomyOrder`, in its `try` block. -/
def insertPaidOrder (order : NewOrder) : Exec (Option OrderRow) :=
  tryCatch (perform (.insertOrder order)) fun error =>
    match error with
    | .database code =>
      if code = js "23505" then
        fail 409 "PAYMENT_REUSED" "This transaction already belongs to another order."
      else throw error
    | _ => throw error

/-- The row of an order that was there already. -/
def existingOrder (order : NewOrder) : Exec OrderRow := do
  match ← perform (.selectOrder order.orderId order.userId) with
  | none =>
    fail 409 "ORDER_CONFLICT"
      "This order ID is already bound to a different immutable request."
  | some row =>
    if row.requestHash ≠ order.requestHash ∨ row.transactionHash ≠ order.transactionHash then
      fail 409 "ORDER_CONFLICT"
        "This order ID is already bound to a different immutable request."
    else return row

/-- `createEconomyOrder` after its checks. -/
def recordOrder (order : NewOrder) : Exec PublicOrder := do
  let inserted ← insertPaidOrder order
  let row ← (match inserted with
    | some row => pure row
    | none => existingOrder order)
  if row.state = .fulfilled then return publicEconomyOrder row
  else deliverEconomyOrder H order.userId row

/-- `createEconomyOrder(user, value)` -/
def createEconomyOrder (deployment : Option EconomyDeployment) (user : User) (value : Json) :
    Exec PublicOrder := do
  match deployment with
  | none => fail 503 "ECONOMY_NOT_DEPLOYED" "The Arc economy contracts are not deployed."
  | some deployment => do
    let (platformAgentId, request) ← check (createOrderInput H value)
    let service ← checkTerms H deployment user platformAgentId request
    let receipt ← finalizedPayment H service request
    let requestHash ← check (request.json.canonicalJsonHash H)
    recordOrder H {
      orderId := request.orderId
      userId := user.id
      platformAgentId
      serviceHash := service.serviceHash
      requestHash
      request := request.json
      definition := service.json
      transactionHash := request.transactionHash
      receipt }

/-! ### The system -/

variable {ι : Type} (J : Jsonb)

/-- What an effect of the process `i` does.  The service and the answer of the provider were read
with `JSON.parse`; a token is drawn only once. -/
def sem (i : ι) (d : OrderDb ι) : (o : Effect) → Except ApiError (Answer o) → OrderDb ι → Prop
  | .selectService _, r, d' => d' = d ∧ ∀ x, r = .ok (some x) → x.Distinct
  | .selectAgent _ _, _, d' => d' = d
  | .insertOrder order, r, d' => Statement.Answers ApiError.lost (insertOrder J order) d r d'
  | .selectOrder orderId userId, r, d' =>
    Statement.Answers ApiError.lost (selectOrder orderId userId) d r d'
  | .claimDelivery orderId userId token, r, d' =>
    Statement.Answers ApiError.lost (claimDelivery orderId userId token) d r d'
  | .completeDelivery orderId userId token output outputHash, r, d' =>
    Statement.Answers ApiError.lost
      (completeDelivery J orderId userId token output outputHash) d r d'
  | .releaseDelivery orderId userId token message, r, d' =>
    Statement.Answers ApiError.lost (releaseDelivery orderId userId token message) d r d'
  | .readAgent _, _, d' => d' = d
  | .getFinalizedReceipt _, _, d' => d' = d
  | .randomUUID, r, d' => ∃ token, d.drawn token = none ∧ r = .ok token ∧
      d' = { d with drawn := Function.update d.drawn token (some i) }
  | .requestService _ _, r, d' => d' = d ∧ ∀ body, r = .ok body → body.Distinct

/-- Any number of requests by any users; the clock goes on. -/
def system (deployment : Option EconomyDeployment) :
    System ι (OrderDb ι) Effect Answer ApiError PublicOrder where
  sem := sem J
  starts _ _ p :=
    (∃ user value, value.Distinct ∧ p = createEconomyOrder H deployment user value) ∨
      ∃ userId orderId, p = retryEconomyDelivery H userId orderId
  env _ d d' := ∃ now, d.now ≤ now ∧ d' = { d with now }

end Marketplace

end Obolos
