import Obolos.Crash.System
import Obolos.Js.Parse
import Obolos.Platform.MarketTable
import Obolos.Runs.Evidence

/-!
# The hosted market

The handlers of `marketplace.ts` that touch orders.  A runner orders a verification for its job
(`createMarketOrder`) and confirms a payment for it (`confirmMarketOrder`), which also delivers it;
the owner of the agent can deliver a paid order again (`retryMarketDelivery`).  A delivery calls the
provider between two statements, and can be overtaken in between.
-/

namespace Obolos

namespace HostedMarket

open Json
open Runs.Evidence (Texts isNameUnit splitRepo isCount textWith defined asNum)

/-- The platform, and the functions of other modules that the handlers use. -/
structure Market where
  texts : Texts
  jsonb : Jsonb
  /-- `appOrigin()` -/
  appOrigin : JsString
  /-- `createHash('sha256').update(text).digest('hex')` -/
  sha256 : JsString → JsString
  /-- `verifyMetricReport(report, new Date(Number(proof.timestamp) * 1000))` -/
  verifyMetricReport : Json → Option Json → Except JsError Json

variable (M : Market)

/-! ### Reports -/

/-- The pattern of a repository in a report. -/
def isReportRepo (repo : JsString) : Bool :=
  let owner := (splitRepo repo).1
  let name := (splitRepo repo).2
  (owner.take 1).all Circle.isAlphanumeric && decide (1 ≤ owner.length ∧ owner.length ≤ 39) &&
    owner.all (fun c => Circle.isAlphanumeric c || c == 45) &&
    decide (1 ≤ name.length ∧ name.length ≤ 100) && name.all isNameUnit

/-- `count` -/
def isReportCount (x : Option Json) : Bool :=
  isCount x && (x.bind asNum).any fun q => decide (q ≤ 100000000)

/-- The keys of the evidence of a report. -/
def evidenceKeys : List String :=
  ["repo", "description", "stars", "forks", "openIssues", "pushedAt", "language", "license",
    "sourceUrl", "fetchedAt"]

/-- An item of the evidence of a report. -/
def isReportEvidence : Json → Bool
  | .obj fields =>
    (fields.all fun field => (evidenceKeys.map js).contains field.1) &&
      textWith isReportRepo (get (js "repo") fields) &&
      textWith (·.length ≤ 20000) (get (js "description") fields) &&
      isReportCount (get (js "stars") fields) && isReportCount (get (js "forks") fields) &&
      isReportCount (get (js "openIssues") fields) &&
      textWith (·.length ≤ 1000) (get (js "pushedAt") fields) &&
      textWith (·.length ≤ 1000) (get (js "language") fields) &&
      textWith (·.length ≤ 1000) (get (js "license") fields) &&
      textWith (·.length ≤ 1000) (get (js "sourceUrl") fields) &&
      textWith M.texts.isDatetime (get (js "fetchedAt") fields)
  | _ => false

/-- An item of the checks of a report; keys that are not known are dropped. -/
def readReportCheck : Json → Option Json
  | .obj fields =>
    match get (js "passed") fields with
    | some (.bool passed) =>
      if textWith (·.length ≤ 1000) (get (js "label") fields) &&
          textWith (·.length ≤ 20000) (get (js "detail") fields) then
        some (.obj (defined [("label", get (js "label") fields), ("passed", some (.bool passed)),
          ("detail", get (js "detail") fields)]))
      else none
    | _ => none
  | _ => none

/-- The keys of a report. -/
def reportKeys : List String :=
  ["title", "summary", "recommendation", "generatedBy", "createdAt", "checks", "verified",
    "evidence"]

/-- `marketReportSchema` -/
def marketReportSchema : Json → Option Json
  | .obj fields =>
    match get (js "checks") fields, get (js "verified") fields, get (js "evidence") fields with
    | some (.arr checks), some (.bool verified), some (.arr evidence) =>
      if (fields.all fun field => (reportKeys.map js).contains field.1) &&
          textWith (·.length ≤ 1000) (get (js "title") fields) &&
          textWith (·.length ≤ 20000) (get (js "summary") fields) &&
          textWith (·.length ≤ 20000) (get (js "recommendation") fields) &&
          textWith (· = js "model") (get (js "generatedBy") fields) &&
          textWith M.texts.isDatetime (get (js "createdAt") fields) &&
          decide (checks.length ≤ 50) &&
          decide (1 ≤ evidence.length ∧ evidence.length ≤ 3) &&
          evidence.all (isReportEvidence M) then do
        let checks ← checks.mapM readReportCheck
        some (.obj (defined [("title", get (js "title") fields),
          ("summary", get (js "summary") fields),
          ("recommendation", get (js "recommendation") fields),
          ("generatedBy", get (js "generatedBy") fields),
          ("createdAt", get (js "createdAt") fields), ("checks", some (.arr checks)),
          ("verified", some (.bool verified)), ("evidence", some (.arr evidence))]))
      else none
    | _, _, _ => none
  | _ => none

/-- The evidence of a report. -/
def reportEvidence (report : Json) : List Json := ((report.prop "evidence").bind asArr).getD []

/-- The repositories of a report. -/
def reportRepos (report : Json) : List (Option JsString) :=
  (reportEvidence report).map fun e => (e.prop "repo").bind asStr

/-- `reportDigest(report)` with this evidence -/
def reportDigest (report : Json) (evidence : List Json) : JsString :=
  M.sha256 (stringify M.texts.host.numerals (.obj (defined [("title", report.prop "title"),
    ("summary", report.prop "summary"), ("recommendation", report.prop "recommendation"),
    ("evidence", some (.arr (evidence.map fun e =>
      .obj (defined (evidenceKeys.map fun key => (key, e.prop key)))))),
    ("generatedBy", report.prop "generatedBy"), ("createdAt", report.prop "createdAt")])))

/-! ### Bodies -/

/-- The body of a new order. -/
structure OrderInput where
  jobId : JsString
  payer : JsString
  dataTransactionId : JsString
  report : Json

/-- `/^0\.0\.\d+@\d+\.\d+$/` -/
def isNativeId (s : JsString) : Bool :=
  let account := (s.takeWhile (· != 64)).drop 4
  let times := (s.dropWhile (· != 64)).drop 1
  let seconds := times.takeWhile (· != 46)
  let nanos := (times.dropWhile (· != 46)).drop 1
  s.take 4 == js "0.0." && decide (account ≠ [] ∧ seconds ≠ [] ∧ nanos ≠ []) &&
    account.all JsString.isDigit && seconds.all JsString.isDigit && nanos.all JsString.isDigit

/-- `addressSchema` -/
def isAddressText (s : JsString) : Bool := (readHex 40 s.toLowerCase).isSome && s.take 2 == js "0x"

/-- A text with a property. -/
def textIf (p : JsString → Bool) (s : JsString) : Option JsString := if p s then some s else none

/-- The schema of `createMarketOrder`. -/
def readOrderInput (body : Json) : Except JsError OrderInput := do
  let fields ← strictFields ["jobId", "payer", "dataTransactionId", "report"] body
  let jobId ← textField (textIf M.texts.host.isUuid) "jobId" fields
  let payer ← textField (textIf isAddressText) "payer" fields
  let dataTransactionId ← textField (textIf isNativeId) "dataTransactionId" fields
  let report ← field (marketReportSchema M) "report" fields
  return ⟨jobId, payer, dataTransactionId, report⟩

/-- The schema of `confirmMarketOrder`. -/
def readTransactionHash (body : Json) : Except JsError Bytes32 := do
  let fields ← strictFields ["transactionHash"] body
  textField (fun s => if s.take 2 == js "0x" then readBytes32 s.toLowerCase else none)
    "transactionHash" fields

/-! ### What is shown -/

/-- `hasPaymentProof(row)` -/
def hasPaymentProof (row : OrderRow) : Bool :=
  row.transactionHash.any fun hash => row.proof.any fun proof =>
    decide ((proof.prop "transactionHash").bind asStr = some hash.text ∧
      (proof.prop "chainId").bind asNum = some 5042002 ∧
      (row.status = .paid ∨ row.status = .fulfilled))

/-- `MarketOrder`; the times are shown with `toISOString`. -/
structure PublicOrder where
  id : JsString
  jobId : JsString
  serviceId : JsString
  revision : ℕ
  payer : JsString
  recipient : JsString
  amountAtomic : ℕ
  reportDigest : JsString
  createdAt : ℕ
  expiresAt : ℤ
  status : OrderStatus
  transactionHash : Option JsString
  chainConfirmed : Option Bool
  result : Option Json
  deliveryError : Option JsString

/-- `publicMarketOrder(row)` -/
def publicMarketOrder (row : OrderRow) : PublicOrder where
  id := row.id
  jobId := row.jobId
  serviceId := row.serviceId
  revision := row.revision
  payer := row.payer
  recipient := row.recipient
  amountAtomic := row.amountAtomic
  reportDigest := row.reportDigest
  createdAt := row.createdAt
  expiresAt := row.expiresAt
  status := row.status
  transactionHash := row.transactionHash.map Bytes32.text
  chainConfirmed := row.transactionHash.map fun _ => hasPaymentProof row
  result := row.result
  deliveryError := row.deliveryError.filter fun message => message ≠ []

/-- The service that is shown for a listing. -/
def ServiceRow.verification (service : ServiceRow) : VerificationService where
  id := service.id
  revision := service.revision
  name := service.name
  recipient := service.recipient
  priceAtomic := service.priceAtomic
  endpoint := M.appOrigin ++ js "/api/market/services/" ++ service.id
  providerEndpoint := service.providerEndpoint

/-- `Object.keys(selected).some(k => selected[k] !== signed[k])` -/
def VerificationService.changed (selected signed : VerificationService) : Bool :=
  decide ({ selected with providerEndpoint := none } ≠ { signed with providerEndpoint := none }) ||
    (selected.providerEndpoint.isSome &&
      decide (selected.providerEndpoint ≠ signed.providerEndpoint))

/-! ### Effects -/

/-- What the handlers wait for. -/
inductive Effect
  -- the database
  | selectJobOrder (jobId runnerId : JsString)
  | selectOrder (id : JsString) (scope : OrderScope)
  | selectJob (jobId : JsString) (runner : Runner)
  | selectService (id : JsString)
  | selectPayments (transactionId : JsString)
  | insertOrder (order : NewOrder)
  | markPaid (id runnerId : JsString) (hash : Bytes32) (proof : Json)
  | claimDelivery (id : JsString) (scope : OrderScope) (token : JsString)
  | completeDelivery (id token : JsString) (result : Json)
  | failDelivery (id token message : JsString)
  -- the wallet and the chain
  /-- `validateSignedMandate(mandate, …)` -/
  | validateSignedMandate (job : JobRow)
  /-- `verifyMarketTransfer(hash, order)`: the proof -/
  | verifyMarketTransfer (hash : Bytes32) (order : PublicOrder)
  -- the rest
  | now
  | randomUUID
  | requestRemoteVerification (request : RemoteRequest)

/-- The answers. -/
abbrev Answer : Effect → Type
  | .selectJobOrder _ _ => Option OrderRow
  | .selectOrder _ _ => Option OrderRow
  | .selectJob _ _ => Option JobRow
  | .selectService _ => Option ServiceRow
  | .selectPayments _ => List ServicePayment
  | .insertOrder _ => Option OrderRow
  | .markPaid _ _ _ _ => Option OrderRow
  | .claimDelivery _ _ _ => Option OrderRow
  | .completeDelivery _ _ _ => Option OrderRow
  | .failDelivery _ _ _ => Unit
  | .validateSignedMandate _ => Bool
  | .verifyMarketTransfer _ _ => Json
  | .now => ℤ
  | .randomUUID => JsString
  | .requestRemoteVerification _ => Json

/-- Programs with these effects. -/
abbrev Exec (α : Type) := Prog Effect Answer ApiError α

/-- One effect. -/
def perform (o : Effect) : Exec (Answer o) := Prog.await o

/-- `throw new PlatformError(status, code, message)` -/
def fail {α : Type} (status : ℕ) (code message : String) : Exec α :=
  throw (.platform status (js code) (js message))

/-- Library code that may throw. -/
def check {α : Type} (x : Except JsError α) : Exec α := Prog.ofExcept (ApiError.lift x)

/-- `z.uuid().parse(id)` -/
def parseUuid (id : JsString) : Exec Unit :=
  if M.texts.host.isUuid id then pure () else throw (.thrown .zod)

/-! ### Delivery -/

/-- `getMarketOrder(id, scope)` -/
def getMarketOrder (id : JsString) (scope : OrderScope) : Exec OrderRow := do
  parseUuid M id
  match ← perform (.selectOrder id scope) with
  | some row => pure row
  | none => fail 404 "ORDER_NOT_FOUND" "Order not found."

/-- `String(row.transaction_hash)` -/
def hashText : Option Bytes32 → JsString
  | some hash => hash.text
  | none => js "null"

/-- The request to the provider of an order. -/
def remoteRequest (row : OrderIdentity) (endpoint transactionHash : JsString) : RemoteRequest where
  endpoint := endpoint
  report := row.report
  idempotencyKey := js "obolos-order:" ++ row.id
  orderId := row.id
  serviceId := row.serviceId
  revision := row.revision
  recipient := row.recipient
  amountAtomic := row.amountAtomic
  transactionHash := transactionHash
  reportDigest := row.reportDigest
  receiptUrl := M.appOrigin ++ js "/api/market/orders/" ++ row.id ++ js "/receipt"

/-- The result of a claimed order. -/
def verify (transactionHash : JsString) (row : OrderRow) : Exec Json :=
  match row.serviceSnapshot.providerEndpoint with
  | some endpoint =>
    perform (.requestRemoteVerification
      (remoteRequest M row.toOrderIdentity endpoint transactionHash))
  | none => check (M.verifyMetricReport row.report (row.proof.bind (Json.prop "timestamp")))

/-- What an attempt says that has failed. -/
def failedMessage : String :=
  "Payment confirmed, but provider delivery did not complete. Retry confirmation with this order and transaction to request delivery again; do not pay again."

/-- What an attempt says when the delivery is leased. -/
def leasedMessage : String :=
  "Payment is confirmed and delivery is already in progress. Retry confirmation for this same order and transaction; do not pay again."

/-- What an attempt says that was overtaken. -/
def overtakenMessage : String :=
  "Payment remains confirmed. Another delivery attempt owns this order; do not pay again."

/-- The order was delivered by another attempt, or one is under way. -/
def deliveredMeanwhile (id : JsString) (scope : OrderScope) (transactionHash : JsString)
    (message : String) : Exec PublicOrder := do
  let current ← getMarketOrder M id scope
  if current.status = .fulfilled ∧ hashText current.transactionHash = transactionHash then
    pure (publicMarketOrder current)
  else fail 409 "DELIVERY_PENDING" message

/-- The `try` block of `deliverPaidMarketOrder`. -/
def attemptDelivery (id transactionHash token : JsString) (row : OrderRow) :
    Exec (Option OrderRow) := do
  let result ← verify M transactionHash row
  perform (.completeDelivery id token result)

/-- Its `catch` block. -/
def deliveryFailed {α : Type} (id token : JsString) : Exec α := do
  perform (.failDelivery id token (js failedMessage))
  fail 502 "DELIVERY_FAILED" failedMessage

/-- `deliverPaidMarketOrder` after its claim was granted. -/
def deliverClaimed (id : JsString) (scope : OrderScope) (transactionHash token : JsString)
    (row : OrderRow) : Exec PublicOrder := do
  let completed ← tryCatch (attemptDelivery M id transactionHash token row) fun _ =>
    deliveryFailed id token
  match completed with
  | some row => pure (publicMarketOrder row)
  | none => deliveredMeanwhile M id scope transactionHash overtakenMessage

/-- `deliverPaidMarketOrder(row, scope)` -/
def deliverPaidMarketOrder (row : OrderRow) (scope : OrderScope) : Exec PublicOrder := do
  let transactionHash := hashText row.transactionHash
  let token ← perform .randomUUID
  match ← perform (.claimDelivery row.id scope token) with
  | none => deliveredMeanwhile M row.id scope transactionHash leasedMessage
  | some claimed => deliverClaimed M row.id scope transactionHash token claimed

/-- `retryMarketDelivery(userId, id)` -/
def retryMarketDelivery (userId id : JsString) : Exec PublicOrder := do
  let row ← getMarketOrder M id (.user userId)
  if row.status = .fulfilled then pure (publicMarketOrder row)
  else if row.status ≠ .paid ∨ hasPaymentProof row = false then
    fail 409 "PAID_ORDER_REQUIRED"
      "Only an already paid order can retry delivery. No payment was initiated."
  else deliverPaidMarketOrder M row (.user userId)

/-! ### Payment -/

/-- The `try` block of `confirmMarketOrder`. -/
def payQuoted (runner : Runner) (id : JsString) (hash : Bytes32) (proof : Json) : Exec OrderRow :=
  tryCatch (do
      match ← perform (.markPaid id runner.id hash proof) with
      | some row => pure row
      | none => getMarketOrder M id (.runner runner)) fun error =>
    match error with
    | .database code =>
      if code = js "23505" then
        fail 409 "PAYMENT_REUSED" "This transaction already belongs to another order."
      else throw error
    | _ => throw error

/-- `confirmMarketOrder` after the order was read. -/
def confirmRead (runner : Runner) (id : JsString) (hash : Bytes32) (row : OrderRow) :
    Exec PublicOrder := do
  let row ← (if row.status = .quoted then do
      let proof ← perform (.verifyMarketTransfer hash (publicMarketOrder row))
      payQuoted M runner id hash proof
    else pure row)
  if row.transactionHash ≠ some hash then
    fail 409 "ORDER_CONFLICT" "Order changed while confirming payment."
  else if row.status = .fulfilled then pure (publicMarketOrder row)
  else deliverPaidMarketOrder M row (.runner runner)

/-- `confirmMarketOrder(runner, id, body)` -/
def confirmMarketOrder (runner : Runner) (id : JsString) (body : Json) : Exec PublicOrder := do
  let hash ← check (readTransactionHash body)
  let row ← getMarketOrder M id (.runner runner)
  if row.transactionHash.any fun other => other ≠ hash then
    fail 409 "ORDER_CONFLICT" "Order already paid by a different transaction."
  else if row.status = .fulfilled then pure (publicMarketOrder row)
  else confirmRead M runner id hash row

/-! ### New orders -/

/-- An order is that of the input. -/
def OrderRow.isFor (row : OrderRow) (input : OrderInput) (digest : JsString) : Bool :=
  decide (row.reportDigest = digest ∧ row.payer = input.payer.toLowerCase ∧
    row.dataTransactionId = input.dataTransactionId)

/-- The mandate of the job, with its service. -/
def checkMandate (runner : Runner) (input : OrderInput) :
    Exec (JobRow × VerificationService) := do
  match ← perform (.selectJob input.jobId runner) with
  | none =>
    fail 409 "JOB_UNAVAILABLE" "An assigned running job with an active signed mandate is required."
  | some job => do
    let valid ← perform (.validateSignedMandate job)
    match job.mandate.verificationService with
    | none => fail 409 "MANDATE_REQUIRED" "An active signed marketplace mandate is required."
    | some signed =>
      if valid = false then
        fail 409 "MANDATE_REQUIRED" "An active signed marketplace mandate is required."
      else pure (job, signed)

/-- The service that is bought. -/
def selectVerification (input : OrderInput) (job : JobRow) (signed : VerificationService) :
    Exec VerificationService := do
  parseUuid M signed.id
  match ← perform (.selectService signed.id) with
  | none => fail 404 "SERVICE_NOT_FOUND" "This verification service is unavailable."
  | some service =>
    let selected := service.verification M
    if selected.changed signed then
      fail 409 "SERVICE_CHANGED" "Service changed; sign a new mandate before buying."
    else if job.mandate.verificationBudgetAtomic < selected.priceAtomic ∨
        reportRepos input.report ≠ job.repos.map some then
      fail 400 "INVALID_REPORT" "Report scope or service price exceeds the signed job."
    else pure selected

/-- A payment is for the evidence of the report. -/
def ServicePayment.pays (paid : ServicePayment) (input : OrderInput) (job : JobRow)
    (digest : JsString) : Bool :=
  paid.evidence.any (fun evidence =>
      decide (reportDigest M input.report evidence = digest)) &&
    job.mandate.allowedProviders.contains paid.providerId &&
    decide (paid.repos = job.repos ∧ paid.amountAtomic ≤ job.mandate.dataBudgetAtomic ∧
      paid.amountAtomic ≤
        job.mandate.maxDataUnitPriceAtomic * (reportEvidence input.report).length)

/-- The settled payment for the evidence of the report. -/
def paidEvidence (input : OrderInput) (job : JobRow) (digest : JsString) : Exec ServicePayment := do
  match ← perform (.selectPayments input.dataTransactionId) with
  | [paid] =>
    if paid.pays M input job digest then pure paid
    else
      fail 409 "PAID_EVIDENCE_REQUIRED"
        "This report must match an existing settled evidence purchase within its signed scope."
  | _ =>
    fail 409 "PAID_EVIDENCE_REQUIRED"
      "This report must match an existing settled evidence purchase within its signed scope."

/-- The `INSERT` of `createMarketOrder`, in its `try` block. -/
def insertMarketOrder (order : NewOrder) : Exec (Option OrderRow) :=
  tryCatch (perform (.insertOrder order)) fun error =>
    match error with
    | .database code =>
      if code = js "23505" then
        fail 409 "EVIDENCE_REUSED"
          "This evidence purchase already belongs to another verification order."
      else throw error
    | _ => throw error

/-- `createMarketOrder` when the job has no order. -/
def orderJob (runner : Runner) (input : OrderInput) (digest : JsString) : Exec PublicOrder := do
  let terms ← checkMandate runner input
  let selected ← selectVerification M input terms.1 terms.2
  let paid ← paidEvidence M input terms.1 digest
  let now ← perform .now
  match M.texts.host.dateParse terms.1.mandate.expiresAt with
  | none => throw (.thrown .other)
  | some expiry => do
    let id ← perform .randomUUID
    let inserted ← insertMarketOrder ⟨id, input.jobId, runner.id, input.payer.toLowerCase, digest,
      input.report, selected, min (now + 15 * 60000) expiry, input.dataTransactionId,
      paid.transactionId⟩
    match inserted with
    | some row => pure (publicMarketOrder row)
    | none => do
      match ← perform (.selectJobOrder input.jobId runner.id) with
      | some replay =>
        if replay.isFor input digest then pure (publicMarketOrder replay)
        else fail 409 "ORDER_CONFLICT" "The order or service changed."
      | none => fail 409 "ORDER_CONFLICT" "The order or service changed."

/-- `createMarketOrder` when the job has an order. -/
def replayOrder (runner : Runner) (input : OrderInput) (digest : JsString) (old : OrderRow) :
    Exec PublicOrder := do
  let _ ← getMarketOrder M old.id (.runner runner)
  if old.isFor input digest then pure (publicMarketOrder old)
  else
    fail 409 "ORDER_CONFLICT" "This job already has an order for a different report or payer."

/-- `createMarketOrder(runner, body)` -/
def createMarketOrder (runner : Runner) (body : Json) : Exec PublicOrder := do
  let input ← check (readOrderInput M body)
  let digest := reportDigest M input.report (reportEvidence input.report)
  let old ← perform (.selectJobOrder input.jobId runner.id)
  match old with
  | some old => replayOrder M runner input digest old
  | none => orderJob M runner input digest

/-! ### The system -/

variable {ι : Type}

/-- What a remote verification was answered. -/
def answered (request : RemoteRequest) : Except ApiError Json → List (RemoteRequest × Json)
  | .ok result => [(request, result)]
  | .error _ => []

/-- What an effect of the process `i` does.  A token is drawn only once. -/
def sem (i : ι) (d : Db ι) : (o : Effect) → Except ApiError (Answer o) → Db ι → Prop
  | .selectJobOrder jobId runnerId, r, d' =>
    Statement.Answers ApiError.lost (selectJobOrder jobId runnerId) d r d'
  | .selectOrder id scope, r, d' => Statement.Answers ApiError.lost (selectOrder id scope) d r d'
  | .selectJob jobId runner, r, d' =>
    Statement.Answers ApiError.lost (selectJob jobId runner) d r d'
  | .selectService id, r, d' => Statement.Answers ApiError.lost (selectService id) d r d'
  | .selectPayments id, r, d' => Statement.Answers ApiError.lost (selectPayments id) d r d'
  | .insertOrder order, r, d' =>
    Statement.Answers ApiError.lost (insertOrder M.jsonb order) d r d'
  | .markPaid id runnerId hash proof, r, d' =>
    Statement.Answers ApiError.lost (markPaid M.jsonb id runnerId hash proof) d r d'
  | .claimDelivery id scope token, r, d' =>
    Statement.Answers ApiError.lost (claimDelivery id scope token) d r d'
  | .completeDelivery id token result, r, d' =>
    Statement.Answers ApiError.lost (completeDelivery M.jsonb id token result) d r d'
  | .failDelivery id token message, r, d' =>
    Statement.Answers ApiError.lost (failDelivery id token message) d r d'
  | .validateSignedMandate _, _, d' => d' = d
  | .verifyMarketTransfer _ _, _, d' => d' = d
  | .now, _, d' => d' = d
  | .randomUUID, r, d' => ∃ token, d.drawn token = none ∧ r = .ok token ∧
      d' = { d with drawn := Function.update d.drawn token (some i) }
  | .requestRemoteVerification request, r, d' =>
    d' = { d with answers := d.answers ++ answered request r }

/-- Any number of requests by any runners and owners; the clock goes on, and the other tables
change in any way. -/
def system : System ι (Db ι) Effect Answer ApiError PublicOrder where
  sem := sem M
  starts _ _ p :=
    (∃ runner body, p = createMarketOrder M runner body) ∨
    (∃ runner id body, p = confirmMarketOrder M runner id body) ∨
    ∃ userId id, p = retryMarketDelivery M userId id
  env _ d d' := ∃ now catalog, d.now ≤ now ∧ d' = { d with
    now := now
    catalog := catalog }

end HostedMarket

end Obolos
