import Obolos.Crash.Outcome
import Obolos.Economy.ProviderTable
import Obolos.Economy.ProviderWork

/-!
# The queue of paid work

`provider-queue.ts`.  A buyer's platform asks for the result of a paid order
(`queuePaidProviderWork`), which queues the job at the first time; the private worker of the seller
claims jobs and reports on them (`providerWorkAction`).  A job is completed with the hash of an
attestation on chain: the ledger has the delivery of this output by the seller in a final block.

What the chain answers is not fixed (`Chain`): a node may show receipts of blocks that are not
canonical, but up to the final block it answers with the canonical blocks.
-/

namespace Obolos

namespace Provider

open Market (Event Log ReceiptStatus)
open ProviderWork (providerSchemas)

/-- `providerUnits` of `provider-work.ts` -/
def providerUnits : ResourceCategory → JsString
  | .data => js "source-record"
  | .compute => js "compute-unit"
  | .inference => js "inference-request"
  | .verification => js "verification-job"
  | .storage => js "stored-object-hour"

/-- `['data','compute','verification']` -/
def readCategories : List ResourceCategory := [.data, .compute, .verification]

/-! ### The chain -/

/-- `client.getTransactionReceipt(…)` -/
structure TransactionReceipt where
  blockNumber : ℕ
  blockHash : Option Bytes32
  status : ReceiptStatus
  transactionHash : Bytes32
  logs : List Log

/-- `client.getBlock(…)`; a pending block has no number and no hash. -/
structure Block where
  number : Option ℕ
  hash : Option Bytes32
  timestamp : ℕ

/-- The canonical block of every height, and the receipts in a block. -/
structure Chain where
  block : ℕ → Bytes32
  mined : Bytes32 → TransactionReceipt → Prop

/-- The receipt is in a canonical block, up to the final one. -/
structure Chain.Final (chain : Chain) (final : ℕ) (receipt : TransactionReceipt) : Prop where
  height : receipt.blockNumber ≤ final
  canonical : receipt.blockHash = some (chain.block receipt.blockNumber)
  mined : chain.mined (chain.block receipt.blockNumber) receipt

/-- What is verified of a receipt. -/
def TransactionReceipt.service (receipt : TransactionReceipt) (chainId : ℕ) :
    Market.ServiceReceipt where
  chainId := chainId
  status := receipt.status
  transactionHash := receipt.transactionHash
  logs := receipt.logs

/-- The log is the attestation of the seller for this output of the order. -/
def attests (ledger : Address) (orderId : Bytes32) (seller : Address) (outputHash : Bytes32)
    (log : Log) : Bool :=
  match ServiceRequest.decodeLedgerLog log.event with
  | some (.DeliveryAttested id from_ hash) =>
    log.address = ledger && id = orderId && from_ = seller && hash = outputHash
  | _ => false

/-! ### Effects -/

/-- What the two functions wait for. -/
inductive Effect
  -- the database
  /-- `SELECT definition FROM economy_services WHERE service_hash=…` -/
  | selectDefinition (serviceHash : Bytes32)
  /-- `INSERT INTO economy_provider_health(…) … ON CONFLICT(seller) DO UPDATE …` -/
  | reportHealth (model : JsString)
  | insertJob (job : NewJob)
  | selectJob (orderId : Bytes32)
  | selectJobOf (orderId : Bytes32) (token : JsString)
  | selectClaimed (token : JsString)
  | claimJob (token : JsString)
  | retryJob (orderId : Bytes32) (token : JsString)
  | failJob (orderId : Bytes32) (token : JsString)
  | completeJob (orderId : Bytes32) (token : JsString) (output : Json)
      (outputHash attestationHash : Bytes32)
  -- the chain
  | getChainId
  | getTransactionReceipt (hash : Bytes32)
  /-- `client.getBlock({blockTag:'finalized'})` -/
  | getFinalizedBlock
  | getBlock (blockNumber : ℕ)
  /-- `Date.now()`, in milliseconds -/
  | dateNow

/-- The answers. -/
abbrev Answer : Effect → Type
  | .selectDefinition _ => Option Json
  | .reportHealth _ => Unit
  | .insertJob _ => Unit
  | .selectJob _ => Option JobRow
  | .selectJobOf _ _ => Option JobRow
  | .selectClaimed _ => Option JobRow
  | .claimJob _ => Option JobRow
  | .retryJob _ _ => Option JobRow
  | .failJob _ _ => Unit
  | .completeJob _ _ _ _ _ => Option JobRow
  | .getChainId => ℕ
  | .getTransactionReceipt _ => TransactionReceipt
  | .getFinalizedBlock => Block
  | .getBlock _ => Block
  | .dateNow => ℕ

/-- What the two functions return. -/
inductive Reply
  | response (response : ServiceResponse)
  /-- `{job}` -/
  | job (job : Option ClaimedJob)
  /-- `{state}` -/
  | state (state : JobState)

/-- Programs with these effects. -/
abbrev Exec (α : Type) := Prog Effect Answer ApiError α

/-- One effect. -/
def perform (o : Effect) : Exec (Answer o) := Prog.await o

/-- `throw failure(status, code, message)` -/
def failure {α : Type} (status : ℕ) (code message : String) : Exec α :=
  throw (.platform status (js code) (js message))

/-- Library code that may throw. -/
def check {α : Type} (x : Except JsError α) : Exec α := Prog.ofExcept (ApiError.lift x)

/-- `economyDeployment()` and `appOrigin()` -/
structure Config where
  deployment : Option Marketplace.EconomyDeployment
  appOrigin : JsString

/-- `referenceSeller` -/
def referenceSeller : Address := 0xd2137e6d65165400641aff0e34781d09a0215858

variable (H : Host) (C : Config)

/-! ### Queueing -/

/-- What a service that is not this provider's is refused with. -/
def termsMismatch {α : Type} : Exec α :=
  failure 409 "PROVIDER_TERMS_MISMATCH" "These immutable terms do not match this provider."

/-- `canonicalJsonHash(schema)!==canonicalJsonHash(expected)` -/
def compareSchema (schema expected : Json) : Exec Unit := do
  let hash ← check (schema.canonicalJsonHash H)
  let expectedHash ← check (expected.canonicalJsonHash H)
  if hash ≠ expectedHash then termsMismatch

/-- The terms but for the schemas are those of this provider. -/
def IsOffer (d : Marketplace.EconomyDeployment) (service : ServiceDefinition)
    (category : ResourceCategory) : Prop :=
  service.settlementAddress = d.settlement ∧ service.ledgerAddress = d.ledger ∧
    service.seller = referenceSeller ∧ service.category = category ∧ service.quantity = 1 ∧
    service.unit = providerUnits category ∧
    service.endpoint = C.appOrigin ++ js "/api/economy/reference/" ++ category.text

instance (d : Marketplace.EconomyDeployment) (service : ServiceDefinition)
    (category : ResourceCategory) : Decidable (IsOffer C d service category) :=
  inferInstanceAs (Decidable (_ ∧ _))

/-- `validateProviderBinding(service, category, origin)`, with the seller `referenceSeller` -/
def validateProviderBinding (service : ServiceDefinition) (category : ResourceCategory) :
    Exec Unit := do
  match C.deployment with
  | none => termsMismatch
  | some d => do
    if ¬ IsOffer C d service category then termsMismatch
    compareSchema H service.inputSchema (providerSchemas category).input
    compareSchema H service.outputSchema (providerSchemas category).output

/-- The payment of a request, as the chain shows it: the time of its block. -/
def paidBlock (service : ServiceDefinition) (request : ServiceRequest) : Exec ℕ := do
  let chainId ← perform .getChainId
  let receipt ← perform (.getTransactionReceipt request.transactionHash)
  let finalized ← perform .getFinalizedBlock
  if finalized.number.all fun number => receipt.blockNumber > number then
    failure 409 "PAYMENT_PENDING" "Wait for payment finality."
  let _ ← check (request.verifyServiceSettlement H service (receipt.service chainId))
  let block ← perform (.getBlock receipt.blockNumber)
  if block.hash ≠ receipt.blockHash then
    failure 409 "PAYMENT_PENDING" "Payment block is not canonical."
  return block.timestamp

/-- The end of `queuePaidProviderWork`, with the row of the order. -/
def finishedWork (service : ServiceDefinition) (request : ServiceRequest) (requestHash : Bytes32)
    (job : JobRow) : Exec Reply := do
  if job.requestHash ≠ requestHash then
    failure 409 "ORDER_CONFLICT" "This paid order has different immutable input."
  if job.state = .failed then
    failure 503 "PROVIDER_JOB_FAILED"
      "Provider execution requires reconciliation. Payment is preserved."
  if job.state ≠ .completed then
    failure 503 "PROVIDER_JOB_PENDING"
      "Paid work is queued. Retry delivery with the same order; do not pay again."
  let output := job.output.getD .null
  check (output.validateSchemaValue H service.outputSchema (64 * 1024))
  let outputHash ← check (output.canonicalJsonHash H)
  if job.outputHash ≠ some outputHash then
    failure 503 "INVALID_OUTPUT" "Stored output failed its integrity check."
  return .response {
    orderId := request.orderId
    serviceHash := service.serviceHash
    inputHash := request.inputHash
    outputHash
    output }

/-- `queuePaidProviderWork(categoryValue, value)` -/
def queuePaidProviderWork (categoryValue : JsString) (value : Json) : Exec Reply := do
  let category ← check (match ResourceCategory.read categoryValue with
    | some category => .ok category
    | none => .error .zod)
  let request ← check (ServiceRequest.parse H value)
  match ← perform (.selectDefinition request.serviceHash) with
  | none => failure 404 "SERVICE_NOT_FOUND" "Publish the registered service first."
  | some definition => do
    let service ← check (ServiceDefinition.validate H definition)
    validateProviderBinding H C service category
    check (request.check H service)
    let paidAt ← paidBlock H service request
    let requestHash ← check (request.json.canonicalJsonHash H)
    perform (.insertJob {
      orderId := request.orderId
      requestHash
      request := request.json
      definition := service.json
      paidAt })
    match ← perform (.selectJob request.orderId) with
    | none => throw (.thrown .other)  -- `job` is `undefined`
    | some job => finishedWork H service request requestHash job

/-! ### The actions of the worker -/

/-- `hex` -/
def readHex64 (s : JsString) : Option Bytes32 :=
  (readBytes32 s).filter fun b => b.text = s

/-- `z.uuid()`, as a value of a `uuid` column. -/
def readUuid (s : JsString) : Option JsString := if H.isUuid s then some s.toLowerCase else none

/-- `(?:-[\d-]+)?` -/
def isModelSuffix : JsString → Bool
  | [] => true
  | 45 :: c :: s => (c :: s).all fun c => JsString.isDigit c || c == 45
  | _ => false

/-- `/^gpt-5-nano(?:-[\d-]+)?$/` -/
def readModel (s : JsString) : Option JsString :=
  let name := js "gpt-5-nano"
  if s.take name.length = name ∧ isModelSuffix (s.drop name.length) = true then some s else none

/-- An action of the worker. -/
inductive WorkAction
  | claim (claimId model : JsString)
  | retryRead (orderId : Bytes32) (token : JsString)
  /-- `output` is `z.unknown()`, so it may be missing. -/
  | complete (orderId : Bytes32) (token : JsString) (output : Option Json)
      (attestationHash : Bytes32)
  | failed (orderId : Bytes32) (token : JsString)

/-- The `parse` of `providerWorkAction`. -/
def WorkAction.parse (x : Json) : Except JsError WorkAction := do
  match (x.prop "action").bind Json.asStr with
  | none => .error .zod
  | some action =>
    if action = js "claim" then do
      let fields ← Json.strictFields ["action", "claimId", "model"] x
      let claimId ← Json.textField (readUuid H) "claimId" fields
      let model ← Json.textField readModel "model" fields
      return .claim claimId model
    else if action = js "retry-read" then do
      let fields ← Json.strictFields ["action", "orderId", "token"] x
      let orderId ← Json.textField readHex64 "orderId" fields
      let token ← Json.textField (readUuid H) "token" fields
      return .retryRead orderId token
    else if action = js "complete" then do
      let fields ← Json.strictFields ["action", "orderId", "token", "output", "attestationHash"] x
      let orderId ← Json.textField readHex64 "orderId" fields
      let token ← Json.textField (readUuid H) "token" fields
      let attestationHash ← Json.textField readHex64 "attestationHash" fields
      return .complete orderId token (Json.get (js "output") fields) attestationHash
    else if action = js "failed" then do
      let fields ← Json.strictFields ["action", "orderId", "token"] x
      let orderId ← Json.textField readHex64 "orderId" fields
      let token ← Json.textField (readUuid H) "token" fields
      return .failed orderId token
    else .error .zod

/-- The action `claim`. -/
def claimWork (claimId model : JsString) : Exec Reply := do
  perform (.reportHealth model)
  match ← perform (.selectClaimed claimId) with
  | some job => return .job (some job.claimed)
  | none =>
    let job ← perform (.claimJob claimId)
    return .job (job.map JobRow.claimed)

/-- The row that an action is about. -/
def jobOf (orderId : Bytes32) (token : JsString) : Exec JobRow := do
  match ← perform (.selectJobOf orderId token) with
  | some job => return job
  | none => failure 404 "JOB_NOT_FOUND" "Claimed provider job not found."

/-- What a job that must not be run again is refused with. -/
def retryRefused {α : Type} : Exec α :=
  failure 409 "READ_RETRY_NOT_ALLOWED"
    "Only failed read-only work without output or attestation can be retried."

/-- A column that the driver reads as `null`. -/
def isNull : Option Json → Bool
  | none => true
  | some .null => true
  | some _ => false

/-- The action `retry-read`. -/
def retryRead (orderId : Bytes32) (token : JsString) : Exec Reply := do
  let job ← jobOf orderId token
  let service ← check (ServiceDefinition.validate H job.definition)
  let request ← check (ServiceRequest.validate H service job.request)
  if !(readCategories.contains service.category &&
      (job.state = .failed || job.state = .running) && isNull job.output &&
      job.outputHash.isNone && job.attestationHash.isNone) then
    retryRefused
  let hash ← check (request.json.canonicalJsonHash H)
  if job.requestHash ≠ hash then retryRefused
  match ← perform (.retryJob orderId token) with
  | some _ => return .state .running
  | none =>
    failure 409 "JOB_STATE_CONFLICT" "Provider job changed during retry reconciliation."

/-- The action `failed`. -/
def failWork (orderId : Bytes32) (token : JsString) : Exec Reply := do
  let job ← jobOf orderId token
  perform (.failJob orderId token)
  return .state (if job.state = .completed then .completed else .failed)

/-- The lease of a storage job has run out, or is not the one in the output. -/
def storageExpired (job : JobRow) (output : Json) : Exec Bool := do
  match output with
  | .null => throw (.thrown .other)  -- `output.expiresAt` of `null`
  | _ =>
    let expiry := job.leaseStartedAt.getD 0 + 3600
    let expiresAt ← check (Date.toISOString (expiry * 1000))
    if (output.prop "expiresAt").bind Json.asStr ≠ some expiresAt then return true
    else
      let now ← perform .dateNow
      return expiry ≤ now / 1000

/-- What a completion without an attestation is refused with. -/
def attestationRequired {α : Type} (message : String) : Exec α :=
  failure 409 "ATTESTATION_REQUIRED" message

/-- The delivery event of the seller, in a final block. -/
def checkAttestation (service : ServiceDefinition) (orderId outputHash attestationHash : Bytes32) :
    Exec Unit := do
  let receipt ← perform (.getTransactionReceipt attestationHash)
  let finalized ← perform .getFinalizedBlock
  let chainId ← perform .getChainId
  match C.deployment with
  | none => throw (.thrown .other)  -- `d.chainId` of `null`
  | some d => do
    if chainId ≠ Obolos.chainId ∨ receipt.status ≠ .success ∨
        receipt.blockNumber > finalized.number.getD 0 ∨
        receipt.logs.any (attests d.ledger orderId service.seller outputHash) = false then
      attestationRequired "A finalized seller delivery event for this output is required."
    let canonical ← perform (.getBlock receipt.blockNumber)
    if receipt.blockHash = none ∨ canonical.hash ≠ receipt.blockHash then
      attestationRequired "Delivery attestation block is not canonical."

/-- The end of the action `complete`, for a job that is not completed. -/
def recordOutput (service : ServiceDefinition) (job : JobRow) (orderId : Bytes32)
    (token : JsString) (output : Json) (outputHash attestationHash : Bytes32) : Exec Reply := do
  if ← (if service.category = .storage then storageExpired job output else pure false) then
    failure 409 "STORAGE_EXPIRED"
      "Storage lease is expired or differs from its real service start."
  checkAttestation C service orderId outputHash attestationHash
  match ← perform (.completeJob orderId token output outputHash attestationHash) with
  | some _ => return .state .completed
  | none => failure 409 "JOB_STATE_CONFLICT" "Provider job requires reconciliation."

/-- The action `complete`. -/
def completeWork (orderId : Bytes32) (token : JsString) (output : Option Json)
    (attestationHash : Bytes32) : Exec Reply := do
  let job ← jobOf orderId token
  let service ← check (ServiceDefinition.validate H job.definition)
  match output with
  | none => throw (.thrown .other)  -- `validateSchemaValue(undefined, …)`
  | some output => do
    check (output.validateSchemaValue H service.outputSchema (64 * 1024))
    let outputHash ← check (output.canonicalJsonHash H)
    if job.state = .completed then
      if job.outputHash ≠ some outputHash ∨ job.attestationHash ≠ some attestationHash then
        failure 409 "OUTPUT_CONFLICT" "Completed provider output is immutable."
      else return .state .completed
    else recordOutput C service job orderId token output outputHash attestationHash

/-- `providerWorkAction(value)` -/
def providerWorkAction (value : Json) : Exec Reply := do
  match ← check (WorkAction.parse H value) with
  | .claim claimId model => claimWork claimId model
  | .retryRead orderId token => retryRead H orderId token
  | .failed orderId token => failWork orderId token
  | .complete orderId token output attestationHash =>
    completeWork H C orderId token output attestationHash

/-! ### The system -/

variable {ι : Type} (J : Jsonb) (chain : Chain)

/-- What a client sees of a statement. -/
abbrev Sends {α : Type} (f : Statement JobDb ApiError α) : JobDb → Except ApiError α → JobDb → Prop :=
  Statement.Answers ApiError.lost f

/-- What an effect does.  Definitions were read with `JSON.parse`.  A node answers for a transaction
with a receipt of the block it names, with final numbers only for final blocks, and up to them with
the canonical blocks. -/
def sem (d : JobDb) : (o : Effect) → Except ApiError (Answer o) → JobDb → Prop
  | .selectDefinition _, r, d' => d' = d ∧ ∀ x, r = .ok (some x) → x.Distinct
  | .reportHealth _, _, d' => d' = d
  | .insertJob job, r, d' => Sends (insertJob J job) d r d'
  | .selectJob orderId, r, d' => Sends (selectJob orderId) d r d'
  | .selectJobOf orderId token, r, d' => Sends (selectJobOf orderId token) d r d'
  | .selectClaimed token, r, d' => Sends (selectClaimed token) d r d'
  | .claimJob token, r, d' => ∃ locked, Sends (claimJob locked token) d r d'
  | .retryJob orderId token, r, d' => Sends (retryJob orderId token) d r d'
  | .failJob orderId token, r, d' => Sends (failJob orderId token) d r d'
  | .completeJob orderId token output outputHash attestationHash, r, d' =>
    Sends (completeJob J orderId token output outputHash attestationHash) d r d'
  | .getChainId, _, d' => d' = d
  | .getTransactionReceipt hash, r, d' => d' = d ∧ ∀ receipt, r = .ok receipt →
      receipt.transactionHash = hash ∧ ∀ block, receipt.blockHash = some block →
        chain.mined block receipt
  | .getFinalizedBlock, r, d' => d' = d ∧ ∀ block, r = .ok block →
      ∀ number, block.number = some number → number ≤ d.final
  | .getBlock blockNumber, r, d' => d' = d ∧ ∀ block, r = .ok block → blockNumber ≤ d.final →
      block.hash = some (chain.block blockNumber)
  | .dateNow, _, d' => d' = d

/-- A call of one of the two functions. -/
inductive Request
  | queue (category : JsString) (value : Json)
  | act (value : Json)

/-- The body of a call, which was read with `JSON.parse`. -/
def Request.value : Request → Json
  | .queue _ value => value
  | .act value => value

/-- The program of a call. -/
def handle : Request → Exec Reply
  | .queue category value => queuePaidProviderWork H C category value
  | .act value => providerWorkAction H C value

/-- Any number of calls; time passes and blocks become final. -/
def system : System ι JobDb Effect Answer ApiError Reply where
  sem _ := sem J chain
  starts _ _ p := ∃ request, request.value.Distinct ∧ p = handle H C request
  env _ d d' := ∃ now final, d.now ≤ now ∧ d.final ≤ final ∧ d' = { d with now, final }

end Provider

end Obolos
