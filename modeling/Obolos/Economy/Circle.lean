import Obolos.Economy.Effects

/-!
# Submitting and reconciling Circle operations

`economy-circle.ts`: an operation is saved under its permanent name before it is submitted, and
is never submitted again under that name; what became of it is read back from Circle and the
chain.
-/

namespace Obolos

namespace Circle

open Executor

/-- `throw Error(message)` -/
def fail {α : Type} (message : String) : Exec α := throw (.error (js message))

/-- Work on the journal of one operation behind its own lock file. -/
def withOperationLock {α : Type} (locked : String) (name : JsString) (body : Exec α) : Exec α := do
  Prog.ofExcept (validName name)
  perform .mkdirJournal
  tryCatch (perform (.lockOperation name)) fun _ => fail locked
  Prog.andFinally body do
    perform (.closeOperation name)
    perform (.unlockOperation name)

variable (H : Host) (config : CircleConfig)

/-- What `durableOperation` makes of a journalled operation. -/
def resume (intentHash : Bytes32) (previous : Operation) : Exec Operation :=
  if previous.intentHash ≠ intentHash then
    fail "Operation name already belongs to a different intent."
  else
    match previous.status with
    | .submitted => return previous
    | .failed => fail "Terminal failure recorded; preserve this intent and use only an explicitly reviewed linked recovery operation."
    | _ => fail "Existing operation outcome uncertain; reconcile it before further actions."

/-- Record the answer to a submission as final, if it carries the key of the operation; whether
that worked. -/
def saveSubmitted (operation : Operation) : Exec Bool :=
  if strictEq (Record.get "idempotencyKey" operation.result)
      (some (.str operation.idempotencyKey)) then
    tryCatch (do
      perform (.saveOperation operation.name { operation with status := .submitted })
      return true) fun _ => return false
  else return false

/-- What follows a submission: the operation is `submitted` if its answer could be recorded, and
else `uncertain`. -/
def conclude (operation : Operation) : Exec Operation := do
  if ← saveSubmitted operation then return { operation with status := .submitted }
  else do
    perform (.saveOperation operation.name { operation with status := .uncertain })
    fail "Circle operation outcome uncertain; reconcile the journal before retrying."

/-- The part of `durableOperation` behind the lock file of the operation. -/
def journalAndSubmit (name : JsString) (intent : Intent) (submit : JsString → Exec Record) :
    Exec Operation := do
  match ← perform (.loadOperation name) with
  | some previous => resume (intent.hash H) previous
  | none => do
    let idempotencyKey ← perform .randomUUID
    let operation : Operation := {
      name, intent, idempotencyKey
      intentHash := intent.hash H
      status := .submitting
      result := none }
    perform (.saveOperation name operation)
    let result ← tryCatch (some <$> submit idempotencyKey) fun _ => return none
    conclude { operation with result }

/-- `durableOperation(directory, name, intent, submit)` -/
def durableOperation (name : JsString) (intent : Intent) (submit : JsString → Exec Record) :
    Exec Operation :=
  withOperationLock "Operation locked; inspect the process before removing a stale lock." name
    (journalAndSubmit H name intent submit)

/-- `assertTestnet(config)` -/
def assertTestnet : Exec Unit := do
  if (← perform .getChainId) ≠ CHAIN_ID then fail "Wrong chain."

/-- `/^\w+\(.+\)$|^\w+\(\)$/.test(signature)` -/
def isSignature (signature : JsString) : Bool :=
  let rest := signature.dropWhile fun c => isAlphanumeric c || c == 95
  rest.length < signature.length && rest.head? == some 40 && 2 ≤ rest.length &&
    rest.getLast? == some 41 && rest.all fun c => c != 10 && c != 13 && c != 0x2028 && c != 0x2029

/-- The arguments of the Circle command line for a contract call. -/
def executeArgs (call : List JsString) (contract : JsString) : List JsString :=
  [js "wallet", js "execute"] ++ call ++
    [js "--contract", contract, js "--address", config.wallet, js "--chain", CHAIN,
      js "--amount", js "0", js "--output", js "json"]

/-- `executeCircle(config, name, contract, signature, parameters)` -/
def executeCircle (name contract signature : JsString) (parameters : List JsString) :
    Exec Operation := do
  if !H.isAddress contract || !isSignature signature then fail "Invalid contract call."
  assertTestnet
  let args := executeArgs config (signature :: parameters) contract
  match H.encodeCircleCall signature parameters with
  | none => throw .other
  | some data => do
    let rawArgs := executeArgs config [data] contract
    durableOperation H name ⟨js "execute", args⟩ fun key => do
      let answer ← perform (.submit name (rawArgs ++ [js "--idempotency-key", key]) key)
      Prog.ofExcept (sanitizeResult answer)

/-- `approveCircleUsdc(config, name, settlement, amountAtomic)` -/
def approveCircleUsdc (name settlement : JsString) (amountAtomic : ℕ) : Exec Operation := do
  if amountAtomic ≥ 2 ^ 256 then fail "Invalid bounded USDC allowance."
  executeCircle H config name (js "0x3600000000000000000000000000000000000000")
    (js "approve(address,uint256)") [settlement, JsString.decimal amountAtomic]

/-- `settlementParameters(order)` -/
def settlementParameters (order : ObolosMarketSettlement.Order) :
    Except JsError (List JsString) := do
  if order.category > 4 ∨ order.quantity = 0 ∨ order.unitPrice = 0 ∨
      order.amount ≠ order.quantity * order.unitPrice then
    JsError.raise "Invalid settlement terms."
  if !H.isAddress order.seller.text then JsError.raise "Invalid seller."
  return [Json.stringify H.numerals (.arr [
    .str order.orderId.text, .str order.agentId.text, .num order.category,
    .str order.seller.text, .str order.serviceHash.text, .str order.unitHash.text,
    .str (JsString.decimal order.quantity), .str (JsString.decimal order.unitPrice),
    .str (JsString.decimal order.amount), .str order.inputHash.text,
    .str (JsString.decimal order.deadline), .str (JsString.decimal order.policyVersion),
    .str (JsString.decimal order.agentVersion), .str (JsString.decimal order.feeVersion)])]

/-- `settleCircleOrder(config, name, settlement, order)` -/
def settleCircleOrder (name settlement : JsString) (order : ObolosMarketSettlement.Order) :
    Exec Operation := do
  let parameters ← Prog.ofExcept (settlementParameters H order)
  executeCircle H config name settlement (js "settle((bytes32,bytes32,uint8,address,bytes32,bytes32,uint256,uint256,uint256,bytes32,uint256,uint64,uint64,uint64))") parameters

/-! ### Reconciling -/

/-- The arguments of a look into Circle's history. -/
def listArgs (selection : List JsString) : List JsString :=
  [js "transaction", js "list", js "--address", config.wallet, js "--chain", CHAIN] ++ selection

/-- Circle's record of one transaction of the wallet. -/
def detail (id : JsString) : Exec Record := do
  let data ← perform (.circle (listArgs config [js "--transaction-id", id, js "--output", js "json"]))
  match data, transactions data with
  | .null, _ => throw .other
  | _, some [value] => do
    let record ← Prog.ofExcept (sanitizeResult value)
    if !strictEq (Record.get "id" record) (some (.str id)) ||
        !strictEq (Record.get "blockchain" record) (some (.str CHAIN)) ||
        !sameText H (Record.get "sourceAddress" record) config.wallet then
      fail "Circle detail differs from original wallet, chain or transaction ID."
    return record
  | _, _ => fail "Missing exact Circle transaction detail."

/-- The loop of `reconcile` over the pages of Circle's history. -/
def searchPages (op : Operation) : (pages : ℕ) → (cursor : JsString) → Exec (Option Record)
  | 0, _ => return none
  | pages + 1, cursor => do
    let position := if cursor = [] then [] else [js "--cursor", cursor]
    let data ← perform (.circle (listArgs config
      ([js "--limit", js "50", js "--output", js "json"] ++ position)))
    match transactions data with
    | none => fail "Unexpected Circle history envelope."
    | some values => do
      match ← Prog.ofExcept (op.findMatch values) with
      | some tx => return some tx
      | none =>
        match values.getLast? with
        | none => return none
        | some value =>
          if values.length < 50 then return none
          else do
            let tx ← Prog.ofExcept (sanitizeResult value)
            match Record.get "id" tx with
            | some (.str id) => searchPages op pages id
            | _ => return none

/-- Circle's record of an operation, by its transaction id when it is known. -/
def lookUp (op : Operation) : Exec (Option Record) :=
  match Record.get "id" op.result with
  | some (.str id) => some <$> detail H config id
  | _ => searchPages config op 20 []

/-- Find the transaction of an operation that so far only has a user operation. -/
def findOnchain (name : JsString) (op : Operation) : Exec Operation :=
  match truthy (Record.get "txHash" op.result), Record.get "userOpHash" op.result with
  | false, some (.str userOpHash) => do
    if !strictEq (Record.get "blockchain" op.result) (some (.str CHAIN)) ||
        !sameText H (Record.get "sourceAddress" op.result) config.wallet then
      fail "Circle user operation belongs to a different wallet or chain."
    match ← perform (.findFinalizedUserOperation config.wallet userOpHash) with
    | none => return op
    | some hash => do
      perform (.saveOperation name (op.onchain hash))
      return op.onchain hash
  | _, _ => return op

/-- `receipt(config, op)` -/
def receipt (op : Operation) : Exec Unit := do
  let hash ← Prog.ofExcept (op.receiptHash H config)
  if !(← perform (.waitForTransactionReceipt hash)) then fail "On-chain transaction reverted."

/-- The rest of `reconcile` for an operation that Circle did not report as failed. -/
def confirm (name : JsString) (op : Operation) : Exec Operation := do
  let op ← findOnchain H config name op
  let _ ← Prog.ofExcept op.requireCircleTransactionHash
  receipt H config op
  return op

/-- `reconcile(config, name)` -/
def reconcile (name : JsString) : Exec Operation := do
  Prog.ofExcept (validName name)
  assertTestnet
  match ← perform (.loadOperation name) with
  | none => fail "Unknown operation."
  | some op =>
    if op.status = .failed then return op
    else do
      match ← lookUp H config op with
      | none => confirm H config name op
      | some tx => do
        let op ← Prog.ofExcept (op.correlate tx)
        perform (.saveOperation name op)
        if op.status = .failed then return op else confirm H config name op

end Circle

end Obolos
