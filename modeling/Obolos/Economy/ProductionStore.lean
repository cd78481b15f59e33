import Obolos.Crash.Transactions
import Obolos.Economy.ProductionAccount
import Obolos.Graph.EdgeList

/-!
# The store of production accounts

`recordProductionAccount` records a statement in one transaction under an advisory lock, with one row
for the statement and one for each purchase that it consumes.  The tables are append only (their
triggers refuse `UPDATE` and `DELETE`), their primary keys are unique.

The orders and the indexed snapshot are read from outside; a row of `economy_orders` keeps its
request.
-/

namespace Obolos

namespace Production

open Transactions (Effect Answer Schema)

/-! ### The tables -/

/-- A row of `economy_production_accounts` -/
structure AccountRow where
  orderId : JsString
  evidenceHash : JsString
  seller : JsString
  payload : Json
  signature : JsString

/-- A row of `economy_production_input_allocations` -/
structure Allocation where
  outputOrderId : JsString
  inputOrderId : JsString
  amountAtomic : ℕ

/-- The primary key of `economy_production_input_allocations` -/
def Allocation.key (a : Allocation) : JsString × JsString := (a.outputOrderId, a.inputOrderId)

/-- The tables. -/
structure Tables where
  accounts : List AccountRow
  allocations : List Allocation

/-- `SELECT COALESCE(sum(amount_atomic),0) … WHERE input_order_id=…` -/
def Tables.allocated (t : Tables) (orderId : JsString) : ℕ :=
  ((t.allocations.filter fun a => a.inputOrderId = orderId).map (·.amountAtomic)).sum

/-- The links from outputs to inputs. -/
def Tables.links (t : Tables) : List (JsString × JsString) := t.allocations.map Allocation.key

/-- What a statement locks. -/
inductive Lock
  /-- `pg_advisory_xact_lock(hashtext('production-account:'+settlement))` -/
  | accounts
  | account (orderId : JsString)
  | evidence (evidenceHash : JsString)
  | allocation (key : JsString × JsString)

/-- The statements. -/
inductive Query
  | lockAccounts
  | selectAccount (orderId : JsString)
  | sumAllocated (orderId : JsString)
  /-- `WITH RECURSIVE inputs(id) AS (…) SELECT 1 FROM inputs WHERE id=… LIMIT 1`: whether the second
  order is an input, directly or not, of the first. -/
  | selectCycle (orderId target : JsString)
  | insertAccount (row : AccountRow)
  | insertAllocation (row : Allocation)

/-- The rows a statement returns. -/
abbrev Rows : Query → Type
  | .lockAccounts => Unit
  | .selectAccount _ => Option AccountRow
  | .sumAllocated _ => ℕ
  | .selectCycle _ _ => Bool
  | .insertAccount _ => Unit
  | .insertAllocation _ => Unit

/-- The database. -/
def schema : Schema Lock Tables Query ApiError Rows where
  locks
    | .lockAccounts, _ => [.accounts]
    | .insertAccount row, _ => [.account row.orderId, .evidence row.evidenceHash]
    | .insertAllocation row, _ => [.allocation row.key]
    | _, _ => []
  run
    | .lockAccounts, _ => .ok ((), fun t => t)
    | .selectAccount orderId, t =>
      .ok (t.accounts.find? fun a => a.orderId = orderId, fun t => t)
    | .sumAllocated orderId, t => .ok (t.allocated orderId, fun t => t)
    | .selectCycle orderId target, t => .ok (EdgeList.descends t.links orderId target, fun t => t)
    | .insertAccount row, t =>
      if t.accounts.any fun a => a.orderId = row.orderId ∨ a.evidenceHash = row.evidenceHash then
        .error ApiError.uniqueViolation
      else .ok ((), fun t => { t with accounts := t.accounts ++ [row] })
    | .insertAllocation row, t =>
      if t.allocations.any fun a => a.key = row.key then .error ApiError.uniqueViolation
      else .ok ((), fun t => { t with allocations := t.allocations ++ [row] })

/-! ### The outside -/

/-- A row of `economy_orders`, with what is read of its definition and its request. -/
structure OrderRow where
  userId : JsString
  /-- `definition.seller` -/
  seller : JsString
  /-- `request.settlement.address` -/
  settlement : JsString
  /-- `request.settlement.ledgerAddress` -/
  ledger : JsString
  /-- `request.amountAtomic` -/
  amountAtomic : JsString
  transactionHash : JsString
  outputHash : Option JsString

/-- An order of the indexed snapshot. -/
structure ChainOrder where
  orderId : JsString
  seller : JsString
  outputHash : Option JsString
  transactionHash : JsString
  delivered : Bool
  buyerAcknowledged : Bool
  deliveredAt : Option ℕ
  acknowledgedAt : Option ℕ
  deliveryBlockNumber : Option JsString
  deliveryLogIndex : Option ℕ
  acknowledgmentBlockNumber : Option JsString
  acknowledgmentLogIndex : Option ℕ

/-- `economy_orders` by their primary key, and `snapshot.orders`. -/
structure Index where
  orders : JsString → Option OrderRow
  chainOrders : Option (List ChainOrder)

/-- The reads of the outside. -/
inductive Read
  | selectSnapshot
  | selectOrder (orderId : JsString)

/-- What is read. -/
abbrev ReadAnswer : Read → Type
  | .selectSnapshot => Option (List ChainOrder)
  | .selectOrder _ => Option OrderRow

/-- The answer to a read. -/
def Index.read (w : Index) : (o : Read) → ReadAnswer o
  | .selectSnapshot => w.chainOrders
  | .selectOrder orderId => w.orders orderId

/-- Programs with these effects. -/
abbrev Exec (α : Type) := Prog (Effect Lock Query Read) (Answer Rows ReadAnswer) ApiError α

/-- `db.query(…)` -/
def query (q : Query) : Exec (Rows q) :=
  Prog.await (Effect.statement q : Effect Lock Query Read)

/-- A read of the outside. -/
def read (o : Read) : Exec (ReadAnswer o) :=
  Prog.await (Effect.outside o : Effect Lock Query Read)

/-- `db.query('BEGIN')` -/
def begin : Exec Unit := Prog.await (Effect.begin : Effect Lock Query Read)

/-- `db.query('COMMIT')` -/
def commit : Exec Unit := Prog.await (Effect.commit : Effect Lock Query Read)

/-- `db.query('ROLLBACK')` -/
def rollback : Exec Unit := Prog.await (Effect.rollback : Effect Lock Query Read)

/-- A check. -/
def check {α : Type} (x : Except ApiError α) : Exec α := Prog.ofExcept x

/-! ### The checks -/

/-- `fail(message,status)` -/
def fail {α : Type} (status : ℕ) (message : JsString) : Except ApiError α :=
  .error (.platform status (js "INVALID_PRODUCTION_ACCOUNT") message)

/-- The sale of the output. -/
def checkOutput (p : ProductionAccount) (output : Option OrderRow) (chainOutput : ChainOrder) :
    Except ApiError Unit :=
  let matched := match output with
    | none => false
    | some row => decide (row.seller = p.seller) && decide (row.settlement = p.settlement) &&
        decide (row.ledger = p.ledger) && decide (row.transactionHash = p.transactionHash) &&
        decide (row.outputHash = some p.outputHash)
  if !matched ∨ chainOutput.outputHash ≠ some p.outputHash ∨
      chainOutput.seller.toLowerCase ≠ p.seller ∨ !chainOutput.delivered ∨
      !chainOutput.buyerAcknowledged ∨ chainOutput.transactionHash ≠ p.transactionHash then
    fail 422 (js
      "The output sale must match indexed payment, seller delivery and buyer acknowledgment.")
  else
    match chainOutput.acknowledgedAt with
    | none => fail 422 (js "Accounting must be signed after output acknowledgment.")
    | some acknowledgedAt =>
      if p.issuedAt < acknowledgedAt then
        fail 422 (js "Accounting must be signed after output acknowledgment.")
      else .ok ()

/-- The message for an input that the producer has not acquired in time. -/
def notAcquired {α : Type} : Except ApiError α :=
  fail 422 (js ("Each consumed input must be a delivered purchase owned by this producer and " ++
    "acquired before output delivery."))

/-- The positions of two events. -/
def checkPositions (input output : ChainOrder) : Except ApiError Unit :=
  match input.acknowledgmentBlockNumber, input.acknowledgmentLogIndex, output.deliveryBlockNumber,
    output.deliveryLogIndex with
  | some inputBlock, some inputIndex, some outputBlock, some outputIndex =>
    match readBigInt inputBlock, readBigInt outputBlock with
    | some inputBlock, some outputBlock =>
      if outputBlock < inputBlock ∨ inputBlock = outputBlock ∧ outputIndex ≤ inputIndex then
        fail 422 (js "Input acceptance must precede output delivery.")
      else .ok ()
    | _, _ => .error (.thrown .other)
  | _, _, _, _ => fail 422 (js "Refresh indexed event positions before recording input consumption.")

/-- A purchase that is consumed; the result is its row. -/
def checkPurchase (user : User) (p : ProductionAccount) (row : Option OrderRow)
    (chainInput : Option ChainOrder) (chainOutput : ChainOrder) : Except ApiError OrderRow :=
  match row, chainInput with
  | some row, some chainInput =>
    match chainInput.deliveredAt, chainInput.acknowledgedAt, chainOutput.deliveredAt with
    | some deliveredAt, some acknowledgedAt, some outputAt =>
      if row.userId ≠ user.id ∨ row.settlement ≠ p.settlement ∨ row.ledger ≠ p.ledger ∨
          !chainInput.buyerAcknowledged ∨ chainInput.transactionHash ≠ row.transactionHash ∨
          outputAt < max deliveredAt acknowledgedAt then notAcquired
      else (checkPositions chainInput chainOutput).map fun _ => row
    | _, _, _ => notAcquired
  | _, _ => notAcquired

/-- What the allocation leaves of what was paid. -/
def checkAmount (allocated : ℕ) (item : Input) (row : OrderRow) : Except ApiError Unit :=
  match readBigInt row.amountAtomic with
  | none => .error (.thrown .other)
  | some amount =>
    if amount < (allocated + item.amountAtomic : ℤ) then
      fail 422 (js "An input purchase cannot be allocated more than its actual paid amount.")
    else .ok ()

/-! ### The program -/

variable (Sv : Services) (D : Deployment)

/-- The body of the loop over the inputs. -/
def checkInput (user : User) (p : ProductionAccount) (chainOrders : List ChainOrder)
    (chainOutput : ChainOrder) (item : Input) : Exec Unit := do
  let row ← read (.selectOrder item.orderId)
  let row ← check (checkPurchase user p row
    (chainOrders.find? fun o => o.orderId = item.orderId) chainOutput)
  let allocated ← query (.sumAllocated item.orderId)
  check (checkAmount allocated item row)
  let cycle ← query (.selectCycle item.orderId p.orderId)
  if cycle then check (fail 422 (js "Production input links cannot form a cycle.")) else return ()

/-- The loop over the inputs. -/
def checkInputs (user : User) (p : ProductionAccount) (chainOrders : List ChainOrder)
    (chainOutput : ChainOrder) : List Input → Exec Unit
  | [] => return ()
  | item :: items => do
    checkInput user p chainOrders chainOutput item
    checkInputs user p chainOrders chainOutput items

/-- The loop that inserts the inputs. -/
def insertInputs (orderId : JsString) : List Input → Exec Unit
  | [] => return ()
  | item :: items => do
    query (.insertAllocation ⟨orderId, item.orderId, item.amountAtomic⟩)
    insertInputs orderId items

/-- What `recordProductionAccount` returns. -/
structure Recorded where
  evidenceHash : JsString
  replayed : Bool

/-- The row of a statement. -/
def SignedAccount.row (record : SignedAccount) : AccountRow :=
  ⟨record.payload.orderId, record.evidenceHash, record.payload.seller, record.value,
    record.signature⟩

/-- A statement for an order that has none. -/
def recordNew (user : User) (record : SignedAccount) : Exec Recorded := do
  let chainOrders ← read .selectSnapshot
  let output ← read (.selectOrder record.payload.orderId)
  match (chainOrders.getD []).find? fun o => o.orderId = record.payload.orderId with
  | none =>
    check (fail 422 (js "Index the completed output sale before recording its production account."))
  | some chainOutput =>
    check (checkOutput record.payload output chainOutput)
    checkInputs user record.payload (chainOrders.getD []) chainOutput record.payload.inputs
    query (.insertAccount record.row)
    insertInputs record.payload.orderId record.payload.inputs
    commit
    return ⟨record.evidenceHash, false⟩

/-- The `try` block of `recordProductionAccount`. -/
def transaction (user : User) (record : SignedAccount) : Exec Recorded := do
  query .lockAccounts
  let old ← query (.selectAccount record.payload.orderId)
  match old with
  | none => recordNew user record
  | some old =>
    if old.evidenceHash ≠ record.evidenceHash then
      check (fail 409 (js
        "This production account is immutable; a different statement already exists."))
    else
      commit
      return ⟨record.evidenceHash, true⟩

/-- The `catch` block. -/
def abandon (e : ApiError) : Exec Recorded := do
  rollback
  throw e

/-- The statement, and its errors. -/
def authentic (now : ℕ) (input : Json) : Except ApiError SignedAccount :=
  match authenticateProductionAccount Sv D now input with
  | .ok record => .ok record
  | .error e => fail 422 (Sv.errorMessage e)

/-- `recordProductionAccount(db,user,input,deployment)` -/
def recordProductionAccount (user : User) (now : ℕ) (input : Json) : Exec Recorded := do
  let record ← check (authentic Sv D now input)
  if record.payload.seller ≠ user.address.toLowerCase then
    check (fail 403 (js "Sign in as the producing seller."))
  else
    begin
    tryCatch (transaction user record) abandon

end Production

end Obolos
