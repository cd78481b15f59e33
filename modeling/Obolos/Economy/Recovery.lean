import Obolos.Crash.Transactions
import Obolos.Economy.ServiceContract
import Obolos.Js.BigInt
import Obolos.Platform.Database

/-!
# Disputes, refunds and reviews

`recoveryAction` records a dispute, a refund or a review of an order in one transaction: it locks the
row of the order, reads the chain where it has to, and inserts one row.  The tables are append only
(their triggers refuse `UPDATE` and `DELETE`), their primary keys are unique.

Other handlers insert orders after a look at the receipt of their payment, and change the delivery
of an order (`putOrder`); the trigger of `economy_orders` refuses any other change of a row.
-/

namespace Obolos

namespace Recovery

open Transactions (Effect Answer Schema)

/-! ### The tables -/

/-- A row of `economy_orders`, with the address of its owner. -/
structure Order where
  orderId : Bytes32
  userId : JsString
  ownerAddress : JsString
  request : Json
  /-- `String(row.definition.seller)` -/
  seller : JsString
  state : JsString
  outputHash : Option JsString
  output : Json

/-- A row of `economy_disputes` -/
structure Dispute where
  orderId : Bytes32
  userId : JsString
  reason : JsString

/-- A row of `economy_refunds` -/
structure Refund where
  transactionHash : Bytes32
  logIndex : ℕ
  orderId : Bytes32
  seller : JsString
  payer : Address
  amountAtomic : ℕ
  deriving DecidableEq

/-- `verdict` -/
inductive Verdict
  | passed | failed
  deriving DecidableEq

/-- A row of `economy_reviews` -/
structure Review where
  orderId : Bytes32
  reviewer : JsString
  outputHash : Bytes32
  verdict : Verdict
  evidenceReference : JsString
  evidenceHash : Bytes32
  deriving DecidableEq

/-- The tables. -/
structure Tables where
  orders : List Order
  disputes : List Dispute
  refunds : List Refund
  reviews : List Review

/-- The primary key of `economy_refunds` -/
def Refund.key (r : Refund) : Bytes32 × ℕ := (r.transactionHash, r.logIndex)

/-- The primary key of `economy_reviews` -/
def Review.key (r : Review) : Bytes32 × JsString := (r.orderId, r.reviewer)

/-- The refunds of an order. -/
def Tables.refundsOf (t : Tables) (orderId : Bytes32) : List Refund :=
  t.refunds.filter fun r => r.orderId = orderId

/-- `SELECT sum(amount_atomic) FROM economy_refunds WHERE order_id=…` -/
def Tables.refunded (t : Tables) (orderId : Bytes32) : ℕ :=
  ((t.refundsOf orderId).map (·.amountAtomic)).sum

/-- What a statement locks: the row of an order, or a value of a primary key. -/
inductive Lock
  | order (id : Bytes32)
  | dispute (id : Bytes32)
  | refund (key : Bytes32 × ℕ)
  | review (key : Bytes32 × JsString)

/-- The statements. -/
inductive Query
  /-- `SELECT … WHERE order_id=… FOR UPDATE OF o` -/
  | selectOrder (id : Bytes32)
  /-- `INSERT INTO economy_disputes … ON CONFLICT DO NOTHING` -/
  | insertDispute (dispute : Dispute)
  /-- `SELECT … WHERE chain_id=5042002 AND transaction_hash=… AND log_index=…` -/
  | selectRefund (transactionHash : Bytes32) (logIndex : ℕ)
  | sumRefunds (id : Bytes32)
  | insertRefund (refund : Refund)
  | selectReview (id : Bytes32) (reviewer : JsString)
  | insertReview (review : Review)
  /-- A statement of another handler: an order is inserted, or its delivery is updated. -/
  | putOrder (order : Order)

/-- The rows a statement returns. -/
abbrev Rows : Query → Type
  | .selectOrder _ => Option Order
  | .insertDispute _ => Unit
  | .selectRefund _ _ => Option Refund
  | .sumRefunds _ => ℕ
  | .insertRefund _ => Unit
  | .selectReview _ _ => Option Review
  | .insertReview _ => Unit
  | .putOrder _ => Unit

/-- The row with the delivery of another one. -/
def Order.deliver (row order : Order) : Order :=
  { row with state := order.state, outputHash := order.outputHash, output := order.output }

/-- `putOrder` on the rows of the table. -/
def putRow (order : Order) (rows : List Order) : List Order :=
  if rows.any fun row => row.orderId = order.orderId then
    rows.map fun row => if row.orderId = order.orderId then row.deliver order else row
  else rows ++ [order]

/-- The database. -/
def schema : Schema Lock Tables Query ApiError Rows where
  locks
    | .selectOrder id, t => if t.orders.any fun row => row.orderId = id then [.order id] else []
    | .insertDispute dispute, _ => [.dispute dispute.orderId]
    | .insertRefund refund, _ => [.refund refund.key]
    | .insertReview review, _ => [.review review.key]
    | .putOrder order, _ => [.order order.orderId]
    | _, _ => []
  run
    | .selectOrder id, t => .ok (t.orders.find? fun row => row.orderId = id, id_)
    | .insertDispute dispute, t =>
      if t.disputes.any fun row => row.orderId = dispute.orderId then .ok ((), id_)
      else .ok ((), fun t => { t with disputes := t.disputes ++ [dispute] })
    | .selectRefund transactionHash logIndex, t =>
      if int4Max < logIndex then .error .outOfRange
      else .ok (t.refunds.find? fun r => r.key = (transactionHash, logIndex), id_)
    | .sumRefunds id, t => .ok (t.refunded id, id_)
    | .insertRefund refund, t =>
      if t.refunds.any fun r => r.key = refund.key then .error .uniqueViolation
      else .ok ((), fun t => { t with refunds := t.refunds ++ [refund] })
    | .selectReview id reviewer, t => .ok (t.reviews.find? fun r => r.key = (id, reviewer), id_)
    | .insertReview review, t =>
      if t.reviews.any fun r => r.key = review.key then .error .uniqueViolation
      else .ok ((), fun t => { t with reviews := t.reviews ++ [review] })
    | .putOrder order, _ => .ok ((), fun t => { t with orders := putRow order t.orders })
where
  id_ : Tables → Tables := fun t => t

/-! ### The chain -/

/-- A log of a receipt. -/
structure Log where
  address : JsString
  logIndex : Option ℕ
  topics : List JsString
  data : JsString

/-- A transaction receipt. -/
structure Receipt where
  status : JsString
  transactionHash : JsString
  blockNumber : ℕ
  blockHash : Option Bytes32
  transactionIndex : ℕ
  logs : List Log

/-- The calls of the chain client.  `readControllerBindings` reads the owners of the executors, and
their owners in turn. -/
inductive ChainCall
  | getChainId
  | getTransactionReceipt (hash : Bytes32)
  /-- `getBlock({blockTag: 'finalized'})`: its number -/
  | finalizedBlock
  /-- `getBlock({blockNumber})`: its hash -/
  | getBlock (blockNumber : ℕ)
  | readControllerBindings (addresses : List JsString) (blockNumber : ℕ)

/-- The answers of the chain client. -/
abbrev ChainAnswer : ChainCall → Type
  | .getChainId => ℕ
  | .getTransactionReceipt _ => Receipt
  | .finalizedBlock => ℕ
  | .getBlock _ => Bytes32
  | .readControllerBindings _ _ => List (JsString × JsString)

/-- Programs with these effects. -/
abbrev Exec (α : Type) := Prog (Effect Lock Query ChainCall) (Answer Rows ChainAnswer) ApiError α

/-- `db.query(…)` -/
def query (q : Query) : Exec (Rows q) :=
  Prog.await (Effect.statement q : Effect Lock Query ChainCall)

/-- `db.query('BEGIN')` -/
def begin : Exec Unit := Prog.await (Effect.begin : Effect Lock Query ChainCall)

/-- `db.query('COMMIT')` -/
def commit : Exec Unit := Prog.await (Effect.commit : Effect Lock Query ChainCall)

/-- `db.query('ROLLBACK')` -/
def rollback : Exec Unit := Prog.await (Effect.rollback : Effect Lock Query ChainCall)

/-- A call of the chain client. -/
def call (o : ChainCall) : Exec (ChainAnswer o) :=
  Prog.await (Effect.outside o : Effect Lock Query ChainCall)

/-- `throw fail(code, message, status)` -/
def fail {α : Type} (status : ℕ) (code message : String) : Exec α :=
  throw (.platform status (js code) (js message))

/-- Library code that may throw. -/
def check {α : Type} (x : Except JsError α) : Exec α := Prog.ofExcept (ApiError.lift x)

/-- What the code uses of the environment and of third-party libraries. -/
structure Services where
  host : Host
  /-- `economyDeployment()?.chainId` -/
  deploymentChainId : Option ℕ
  /-- `process.env.ECONOMY_REVIEW_SIGNERS` -/
  reviewSigners : JsString
  /-- `decodeEventLog` with the event `Transfer`: `from`, `to` and `value` -/
  decodeTransfer : List JsString → JsString → Option (JsString × JsString × ℕ)

/-! ### Requests -/

/-- `z.string().regex(/^0x[a-f0-9]{64}$/)` -/
def readHash (s : JsString) : Option Bytes32 := (readBytes32 s).filter fun b => b.text = s

/-- `z.string().max(78).regex(/^[1-9]\d*$/)` -/
def readAtomic (s : JsString) : Option ℕ := if s.length ≤ 78 then readPositive s else none

/-- `z.string().trim().min(1).max(2000)` -/
def readReason (s : JsString) : Option JsString :=
  if 1 ≤ s.trim.length ∧ s.trim.length ≤ 2000 then some s.trim else none

/-- `z.number().int().nonnegative()` -/
def readIndex : Json → Option ℕ
  | .num q => if q.den = 1 ∧ 0 ≤ q.num ∧ q.num ≤ 2 ^ 53 - 1 then some q.num.toNat else none
  | _ => none

/-- `z.enum(['passed','failed'])` -/
def readVerdict (s : JsString) : Option Verdict :=
  if s = js "passed" then some .passed else if s = js "failed" then some .failed else none

/-- `z.string().url().max(1000).refine(s=>s.startsWith('https://'))` -/
def readReference (H : Host) (s : JsString) : Option JsString :=
  (readUrl H s).filter fun s => decide (s.length ≤ 1000 ∧ js "https://" <+: s)

/-- `action` -/
inductive RecoveryAction
  | dispute (reason : JsString)
  | refund (transactionHash : Bytes32) (logIndex : ℕ) (amountAtomic : ℕ)
  | review (outputHash : Bytes32) (verdict : Verdict) (evidenceReference : JsString)
      (evidenceHash : Bytes32)

/-- `z.discriminatedUnion('action',[…]).parse(value)` -/
def RecoveryAction.parse (H : Host) (value : Json) : Except JsError RecoveryAction :=
  match (value.prop "action").bind Json.asStr with
  | none => .error .zod
  | some kind =>
    if kind = js "dispute" then do
      let fields ← Json.strictFields ["action", "reason"] value
      return .dispute (← Json.textField readReason "reason" fields)
    else if kind = js "refund" then do
      let fields ← Json.strictFields ["action", "transactionHash", "logIndex", "amountAtomic"] value
      let transactionHash ← Json.textField readHash "transactionHash" fields
      let logIndex ← Json.field readIndex "logIndex" fields
      return .refund transactionHash logIndex (← Json.textField readAtomic "amountAtomic" fields)
    else if kind = js "review" then do
      let fields ← Json.strictFields
        ["action", "outputHash", "verdict", "evidenceReference", "evidenceHash"] value
      let outputHash ← Json.textField readHash "outputHash" fields
      let verdict ← Json.textField readVerdict "verdict" fields
      let evidenceReference ← Json.textField (readReference H) "evidenceReference" fields
      return .review outputHash verdict evidenceReference
        (← Json.textField readHash "evidenceHash" fields)
    else .error .zod

/-- `hex.parse(orderId)` -/
def parseHash (s : JsString) : Except JsError Bytes32 :=
  match readHash s with
  | some b => .ok b
  | none => .error .zod

/-! ### Checks -/

/-- The canonical USDC token. -/
def token : JsString := js "0x3600000000000000000000000000000000000000"

/-- `throw fail('INVALID_REFUND', message)` -/
def invalidRefund {α : Type} (message : String) : Except ApiError α :=
  ApiError.fail 409 "INVALID_REFUND" message

/-- `verifyRefundTransfer(receipt,{transactionHash,logIndex,seller,payer,amountAtomic})` -/
def verifyRefundTransfer (Sv : Services) (receipt : Receipt) (transactionHash : Bytes32)
    (logIndex : ℕ) (seller : JsString) (payer : Address) (amountAtomic : ℕ) : Except ApiError ℕ :=
  if receipt.status ≠ js "success" ∨ receipt.transactionHash.toLowerCase ≠ transactionHash.text then
    invalidRefund "Refund transaction did not succeed."
  else
    match receipt.logs.find? fun l =>
      decide (l.logIndex = some logIndex) && decide (l.address.toLowerCase = token) with
    | none => invalidRefund "Canonical USDC refund transfer is absent."
    | some log =>
      match Sv.decodeTransfer log.topics log.data with
      | none => invalidRefund "Refund payer, recipient or amount differs from this order."
      | some (sender, recipient, value) =>
        if sender.toLowerCase ≠ seller.toLowerCase ∨
            recipient.toLowerCase ≠ payer.text.toLowerCase ∨ value ≠ amountAtomic then
          invalidRefund "Refund payer, recipient or amount differs from this order."
        else .ok amountAtomic

/-- The loop of `root(value)`, with the addresses it has passed. -/
def rootFrom (bindings : List (JsString × JsString)) : ℕ → List JsString → JsString → JsString
  | 0, _, current => current
  | fuel + 1, path, current =>
    match bindings.find? fun b => b.1 = current with
    | none => current
    | some (_, owner) =>
      if owner = current then current
      else if current ∈ path then
        ((path.drop (path.idxOf current)).insertionSort fun a b => a.le b = true).headD current
      else rootFrom bindings fuel (path ++ [current]) owner

/-- `root(value)`; a path passes every binding once. -/
def root (bindings : List (JsString × JsString)) (value : JsString) : JsString :=
  rootFrom bindings (bindings.length + 1) [] value.toLowerCase

/-- `sameKnownController(a,b,bindings)` -/
def sameKnownController (a b : JsString) (bindings : List (JsString × JsString)) : Bool :=
  root bindings a = root bindings b

/-- The trusted reviewers. -/
def Services.reviewers (Sv : Services) : List JsString :=
  ((Sv.reviewSigners.toLowerCase.splitOn 44).map JsString.trim).filter fun s => !s.isEmpty

/-! ### The action -/

/-- What `recoveryAction` returns. -/
inductive Result
  | recorded (orderId : Bytes32) (action : JsString)
  | replayed (orderId : Bytes32)

section Action

variable (Sv : Services) (user : User) (id : Bytes32) (row : Order) (request : ServiceRequest)

/-- `await db.query('COMMIT');return {orderId:id,action:action.action,recorded:true};` -/
def record (action : String) : Exec Result := do
  commit
  return .recorded id (js action)

/-- `economyDeployment()!.chainId` -/
def deploymentChainId : Exec ℕ :=
  match Sv.deploymentChainId with
  | some chainId => return chainId
  | none => throw (.thrown .other)

/-- The branch of a dispute. -/
def dispute (reason : JsString) : Exec Result := do
  if row.userId ≠ user.id then
    fail 404 "ORDER_NOT_FOUND" "Owned order not found."
  else
    query (.insertDispute ⟨id, user.id, reason⟩)
    record id "dispute"

/-- The reads of the chain, and what they must say of the transfer. -/
def verifyTransfer (transactionHash : Bytes32) (logIndex amountAtomic : ℕ) : Exec ℕ := do
  let chainId ← call .getChainId
  let receipt ← call (.getTransactionReceipt transactionHash)
  let finalized ← call .finalizedBlock
  let paid ← call (.getTransactionReceipt request.transactionHash)
  let expected ← deploymentChainId Sv
  if chainId ≠ expected ∨ finalized < receipt.blockNumber ∨ receipt.blockNumber < paid.blockNumber ∨
      (receipt.blockNumber = paid.blockNumber ∧ receipt.transactionIndex ≤ paid.transactionIndex) then
    fail 409 "INVALID_REFUND" "Refund must finalize after the original payment."
  else
    let canonical ← call (.getBlock receipt.blockNumber)
    if receipt.blockHash ≠ some canonical then
      fail 409 "INVALID_REFUND" "Refund block is not canonical."
    else
      Prog.ofExcept (verifyRefundTransfer Sv receipt transactionHash logIndex row.seller.toLowerCase
        request.payer amountAtomic)

/-- A refund that was not recorded yet. -/
def newRefund (transactionHash : Bytes32) (logIndex amountAtomic : ℕ) : Exec Result := do
  let _ ← verifyTransfer Sv row request transactionHash logIndex amountAtomic
  let total ← query (.sumRefunds id)
  if request.amountAtomic < total + amountAtomic then
    fail 409 "REFUND_EXCEEDS_PAYMENT" "Refund allocation exceeds the original principal."
  else
    query (.insertRefund
      ⟨transactionHash, logIndex, id, row.seller.toLowerCase, request.payer, amountAtomic⟩)
    record id "refund"

/-- The branch of a refund. -/
def refund (transactionHash : Bytes32) (logIndex amountAtomic : ℕ) : Exec Result := do
  if user.address.toLowerCase ≠ row.seller.toLowerCase then
    fail 403 "SELLER_REQUIRED" "Only the seller can attribute its refund transfer."
  else
    match ← query (.selectRefund transactionHash logIndex) with
    | some existing =>
      if existing.orderId ≠ id ∨ existing.amountAtomic ≠ amountAtomic then
        fail 409 "REFUND_REUSED" "Transfer already belongs to another refund."
      else
        commit
        return .replayed id
    | none => newRefund Sv id row request transactionHash logIndex amountAtomic

/-- The addresses that take part in the order. -/
def parties : List JsString := [row.seller.toLowerCase, request.payer.text, row.ownerAddress]

/-- A review of the delivered output by a reviewer that may review. -/
def insertReview (review : Review) : Exec Result := do
  match ← query (.selectReview id review.reviewer) with
  | some existing =>
    if existing ≠ review then
      fail 409 "REVIEW_IMMUTABLE" "Existing review cannot be changed."
    else record id "review"
  | none =>
    query (.insertReview review)
    record id "review"

/-- The branch of a review. -/
def review (outputHash : Bytes32) (verdict : Verdict) (evidenceReference : JsString)
    (evidenceHash : Bytes32) : Exec Result := do
  let address := user.address.toLowerCase
  if address ∉ Sv.reviewers ∨
      address ∈ [row.seller.toLowerCase, request.payer.text, row.ownerAddress.toLowerCase] then
    fail 403 "INDEPENDENT_REVIEWER_REQUIRED"
      "An explicitly trusted reviewer independent of this order is required."
  else
    let chainId ← call .getChainId
    let expected ← deploymentChainId Sv
    if chainId ≠ expected then
      fail 409 "WRONG_CHAIN" "Review ownership must be read from the configured chain."
    else
      let finalized ← call .finalizedBlock
      let bindings ← call (.readControllerBindings (address :: parties row request) finalized)
      if (parties row request).any fun a => sameKnownController a address bindings then
        fail 403 "INDEPENDENT_REVIEWER_REQUIRED"
          "Reviewer shares a known controller with this order."
      else if row.state ≠ js "fulfilled" ∨ row.outputHash ≠ some outputHash.text then
        fail 409 "DELIVERY_REQUIRED" "Review must bind the actual delivered output."
      else
        let hash ← check (row.output.canonicalJsonHash Sv.host)
        if hash ≠ outputHash then
          fail 409 "DELIVERY_REQUIRED" "Review must bind the actual delivered output."
        else
          insertReview id ⟨id, address, outputHash, verdict, evidenceReference, evidenceHash⟩

/-- The `try` block of `recoveryAction`. -/
def transaction (action : RecoveryAction) : Exec Result := do
  match ← query (.selectOrder id) with
  | none => fail 404 "ORDER_NOT_FOUND" "Order not found."
  | some row =>
    let request ← check (ServiceRequest.parse Sv.host row.request)
    match action with
    | .dispute reason => dispute user id row reason
    | .refund transactionHash logIndex amountAtomic =>
      refund Sv user id row request transactionHash logIndex amountAtomic
    | .review outputHash verdict evidenceReference evidenceHash =>
      review Sv user id row request outputHash verdict evidenceReference evidenceHash

end Action

/-- `(error as {code?:string}).code==='23505'` -/
def isUniqueViolation : ApiError → Bool
  | .platform _ code _ => code = js "23505"
  | .database code => code = js "23505"
  | .thrown _ => false

/-- The `catch` block of `recoveryAction`. -/
def abandon (error : ApiError) : Exec Result := do
  rollback
  if isUniqueViolation error then
    fail 409 "REFUND_REUSED" "Transfer has already been attributed."
  else throw error

/-- `recoveryAction(db,user,orderId,value)` -/
def recoveryAction (Sv : Services) (user : User) (orderId : JsString) (value : Json) :
    Exec Result := do
  let id ← check (parseHash orderId)
  let action ← check (RecoveryAction.parse Sv.host value)
  begin
  tryCatch (transaction Sv user id action) abandon

/-- `getFinalizedReceipt(hash)` -/
def getFinalizedReceipt (hash : Bytes32) : Exec Receipt := do
  let chainId ← call .getChainId
  if chainId ≠ 5042002 then throw (.thrown (.error (js "Wrong chain")))
  else
    let receipt ← call (.getTransactionReceipt hash)
    let finalized ← call .finalizedBlock
    if finalized < receipt.blockNumber then
      throw (.thrown (.error (js "Transaction is not finalized")))
    else return receipt

/-- Another handler that inserts an order or updates its delivery, in a statement of its own. -/
def putOrder (Sv : Services) (order : Order) : Exec Result := do
  let request ← check (ServiceRequest.parse Sv.host order.request)
  let _ ← getFinalizedReceipt request.transactionHash
  begin
  query (.putOrder order)
  record order.orderId "order"

end Recovery

end Obolos
