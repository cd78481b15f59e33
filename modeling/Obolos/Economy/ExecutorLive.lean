import Obolos.Economy.Executor

/-!
# The Circle-backed dependencies

`executor-live.ts`: approving, paying, aborting and acknowledging are Circle operations under the
names of the order, and whether one was made is read from its journal, behind the same lock file.
The calls that only ask the platform or the chain are single effects.
-/

namespace Obolos

namespace Executor

open Obolos.Circle (fail)

/-- `economyDeployment()`: the addresses the operations are sent to. -/
structure Deployment where
  settlement : JsString
  ledger : JsString

variable (H : Host) (config : Circle.CircleConfig) (deployment : Deployment)

/-- `withExecutorOperationLock(config.journal, name, work)` -/
def withExecutorOperationLock {α : Type} (name : JsString) (body : Exec α) : Exec α :=
  Circle.withOperationLock
    "Circle operation locked; no absence or recovery conclusion is safe." name body

/-- `reconcileLocked(state, kind)` -/
def reconcileLocked (state : ExecutorState) (kind : ExecutorAction) : Exec Circle.Operation :=
  withExecutorOperationLock (state.operationName kind)
    (Circle.reconcile H config (state.operationName kind))

/-- The transaction a submitted operation proves. -/
def evidence (op : Circle.Operation) : Option Bytes32 :=
  if op.status = .submitted ∧
      Circle.strictEq (Circle.Record.get "blockchain" op.result) (some (.str Circle.CHAIN)) ∧
      Circle.sameText H (Circle.Record.get "sourceAddress" op.result) config.wallet then
    Circle.readHash (Circle.Record.get "txHash" op.result)
  else none

/-- `circleReceipt(op, state, kind)` -/
def circleReceipt (op : Circle.Operation) (state : ExecutorState) (kind : ExecutorAction) :
    Exec Bytes32 := do
  let op ← (if Circle.truthy (Circle.Record.get "txHash" op.result) then pure op
    else reconcileLocked H config state kind)
  match evidence H config op with
  | none => fail "Circle transaction evidence is incomplete; reconcile this operation."
  | some hash => do
    perform (.finalizedReceipt hash)
    return hash

variable (intent : ExecutorInput)

/-- `hasOperation(state, kind)` -/
def hasOperation (state : ExecutorState) (kind : ExecutorAction) : Exec Bool :=
  withExecutorOperationLock (state.operationName kind) do
    match ← perform (.loadOperation (state.operationName kind)) with
    | some op =>
      if op.name ≠ state.operationName kind then fail "Invalid operation journal."
      return true
    | none => do
      perform (.assertUnpaid intent)
      return false

/-- `prepareAbort(state)` -/
def prepareAbort (state : ExecutorState) : Exec Bool := do
  if ← hasOperation intent state .pay then
    fail "Payment journal exists; abort cannot exclude an in-flight payment."
  perform (.assertUnpaid intent)
  if ← hasOperation intent state .approve then
    let op ← reconcileLocked H config state .approve
    let _ ← circleReceipt H config op state .approve
    let allowance ← perform (.allowance intent)
    let order ← Prog.ofExcept (state.settlementOrder H)
    if allowance ≠ 0 ∧ allowance ≠ order.amount then
      fail "Allowance differs from this order; manual reconciliation required."
    return allowance ≠ 0
  else return false

/-- The allowance is revoked, if that is required. -/
def verifyRevoked (state : ExecutorState) : Exec Unit := do
  if state.abortRevokeRequired then
    if (← perform (.finalizedAllowance intent)) ≠ 0 then
      fail "Allowance revocation is not finalized."

/-- `verifyAborted(state)` -/
def verifyAborted (state : ExecutorState) : Exec Unit := do
  if ← hasOperation intent state .pay then
    fail "Payment journal exists; reservation retained."
  perform (.assertUnpaid intent)
  verifyRevoked intent state
  perform (.remark (.abortVerified state.intent.orderId))

/-- `approve(state)` -/
def approve (state : ExecutorState) : Exec Unit := do
  perform (.remark (.reached state.intent.orderId .approve))
  let order ← Prog.ofExcept (state.settlementOrder H)
  let op ← Circle.approveCircleUsdc H config (state.operationName .approve) deployment.settlement
    order.amount
  let _ ← circleReceipt H config op state .approve

/-- `pay(state)` -/
def pay (state : ExecutorState) : Exec Bytes32 := do
  perform (.remark (.reached state.intent.orderId .pay))
  let order ← Prog.ofExcept (state.settlementOrder H)
  let op ← Circle.settleCircleOrder H config (state.operationName .pay) deployment.settlement order
  circleReceipt H config op state .pay

/-- `abort(state)` -/
def abort (state : ExecutorState) : Exec Bytes32 := do
  perform (.remark (.reached state.intent.orderId .abort))
  let _ ← prepareAbort H config intent state
  let op ← Circle.approveCircleUsdc H config (state.operationName .abort) deployment.settlement 0
  circleReceipt H config op state .abort

/-- `recover(state, kind)` -/
def recover (state : ExecutorState) (kind : ExecutorAction) : Exec Bytes32 := do
  let op ← reconcileLocked H config state kind
  circleReceipt H config op state kind

/-- `acknowledge(state)` -/
def acknowledge (state : ExecutorState) : Exec Bytes32 := do
  match state.outputHash with
  | none => throw .other
  | some outputHash => do
    let op ← Circle.executeCircle H config (state.operationName .ack) deployment.ledger
      (js "acknowledgeDelivery(bytes32,bytes32)") [state.intent.orderId.text, outputHash.text]
    let hash ← circleReceipt H config op state .ack
    if !(← perform (.verifyDelivery state)) then fail "Acknowledgment is not finalized."
    return hash

/-- `liveExecutorDependencies(config, intent, key)` -/
def liveExecutorDependencies : ExecutorDependencies where
  prepareApproval state := perform (.prepareApproval state)
  preparePayment state := perform (.preparePayment state)
  assertActiveService intent := perform (.assertActiveService intent)
  hasOperation := hasOperation intent
  prepareAbort := prepareAbort H config intent
  abort := abort H config deployment intent
  verifyAborted := verifyAborted intent
  authenticate intent := perform (.authenticate intent)
  preflight intent versions := perform (.preflight intent versions)
  approve := approve H config deployment
  pay := pay H config deployment
  recover := recover H config
  verifyPayment state := perform (.verifyPayment state)
  deliver request := perform (.deliver request)
  verifyDelivery state := perform (.verifyDelivery state)
  acknowledge := acknowledge H config deployment

end Executor

end Obolos
