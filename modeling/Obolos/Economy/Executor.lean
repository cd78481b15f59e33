import Obolos.Economy.Circle

/-!
# `runEconomyExecutor`

The durable purchaser of `executor.ts`: it moves an order through its phases, saving the state
before and after every effect that cannot be undone, and picks up where an earlier invocation was
interrupted.  Everything outside the directory of the orders is behind `ExecutorDependencies`.
-/

namespace Obolos

namespace Executor

open Obolos.Circle (fail)

/-- `ExecutorDependencies` -/
structure ExecutorDependencies where
  prepareApproval : ExecutorState → Exec Unit
  preparePayment : ExecutorState → Exec Unit
  assertActiveService : ExecutorInput → Exec Unit
  hasOperation : ExecutorState → ExecutorAction → Exec Bool
  prepareAbort : ExecutorState → Exec Bool
  abort : ExecutorState → Exec Bytes32
  verifyAborted : ExecutorState → Exec Unit
  authenticate : ExecutorInput → Exec Unit
  preflight : ExecutorInput → Option Versions → Exec Versions
  approve : ExecutorState → Exec Unit
  pay : ExecutorState → Exec Bytes32
  recover : ExecutorState → ExecutorAction → Exec Bytes32
  verifyPayment : ExecutorState → Exec Unit
  deliver : ServiceRequest → Exec Delivery
  verifyDelivery : ExecutorState → Exec Bool
  acknowledge : ExecutorState → Exec Bytes32

variable (H : Host) (d : ExecutorDependencies) (intent : ExecutorInput)

/-- `persist()` -/
def persist (state : ExecutorState) : Exec Unit := perform (.saveState intent.orderId state)

/-- `release()` -/
def release : Exec Unit := do
  perform .unlinkReservation
  perform .syncDirectory

/-- `canonicalJsonHash(a) === canonicalJsonHash(b)` -/
def sameHash (a b : Json) : Exec Bool := do
  let hash ← Prog.ofExcept (a.canonicalJsonHash H)
  let hash' ← Prog.ofExcept (b.canonicalJsonHash H)
  return hash = hash'

/-! ### Aborting -/

/-- Decide what has to be revoked, and enter the phase `aborting`. -/
def startAbort (state : ExecutorState) : Exec ExecutorState := do
  let abortRevokeRequired ← d.prepareAbort state
  let state := { state with abortRevokeRequired, phase := .aborting }
  persist intent state
  return state

/-- The transaction that revokes the allowance. -/
def revocation (state : ExecutorState) : Exec Bytes32 := do
  if ← d.hasOperation state .abort then d.recover state .abort else d.abort state

/-- Revoke the allowance, if that is required. -/
def revoke (state : ExecutorState) : Exec ExecutorState := do
  if state.abortRevokeRequired then
    let hash ← revocation d state
    return { state with abortHash := some hash }
  else return state

/-- `runEconomyExecutor` for an order that is to be aborted, or already is in the phase
`aborting`. -/
def abortOrder (state : ExecutorState) : Exec ExecutorState := do
  if !([.prepared, .approving, .approved, .paying, .aborting].contains state.phase) then
    fail "A paid order cannot be aborted."
  let state ← (if state.phase ≠ .aborting then startAbort d intent state else pure state)
  let state ← revoke d state
  d.verifyAborted state
  let state := { state with phase := .aborted }
  persist intent state
  release
  return state

/-! ### Paying -/

/-- An approval that never reached Circle's journal is undone. -/
def rewindApproval (state : ExecutorState) : Exec ExecutorState := do
  if state.phase = .approving then
    if ← d.hasOperation state .approve then return state
    else do
      persist intent { state with phase := .prepared }
      release
      return { state with phase := .prepared }
  else return state

/-- A payment that never reached Circle's journal is undone. -/
def rewindPayment (state : ExecutorState) : Exec ExecutorState := do
  if state.phase = .paying then
    if ← d.hasOperation state .pay then return state
    else do
      persist intent { state with phase := .approved }
      return { state with phase := .approved }
  else return state

/-- What is done when `approve` throws. -/
def approvalFailed (state : ExecutorState) (error : JsError) : Exec Unit := do
  if !(← d.hasOperation state .approve) then
    persist intent { state with phase := .prepared }
    release
  throw error

/-- Reserve the allowance and approve it. -/
def approveOrder (state : ExecutorState) : Exec ExecutorState := do
  d.prepareApproval state
  perform (.saveReservation ⟨intent.orderId, intent.payer⟩)
  let state := { state with phase := .approving }
  persist intent state
  tryCatch (d.approve state) (approvalFailed d intent state)
  let state := { state with phase := .approved }
  persist intent state
  return state

/-- What is done when `pay` throws. -/
def paymentFailed (state : ExecutorState) (error : JsError) : Exec Bytes32 := do
  if !(← d.hasOperation state .pay) then persist intent { state with phase := .approved }
  throw error

/-- The payment is known: build the request for the provider and enter the phase `paid`. -/
def enterPaid (state : ExecutorState) (paymentHash : Bytes32) : Exec ExecutorState := do
  let state := { state with paymentHash := some paymentHash }
  let request ← Prog.ofExcept (state.requestFor H)
  let state := { state with request := some request, phase := .paid }
  persist intent state
  return state

/-- Pay an approved order. -/
def payOrder (state : ExecutorState) : Exec ExecutorState := do
  d.preparePayment state
  d.authenticate intent
  d.assertActiveService intent
  let state := { state with phase := .paying }
  persist intent state
  let paymentHash ← tryCatch (d.pay state) (paymentFailed d intent state)
  enterPaid H intent state paymentHash

/-- The approval was submitted: wait for it. -/
def recoverApproval (state : ExecutorState) : Exec ExecutorState := do
  let _ ← d.recover state .approve
  persist intent { state with phase := .approved }
  return { state with phase := .approved }

/-- Get an order approved that is not. -/
def obtainApproval (state : ExecutorState) : Exec ExecutorState := do
  let state ← (if state.phase = .approving then recoverApproval d intent state else pure state)
  if state.phase = .prepared then approveOrder d intent state else return state

/-- `runEconomyExecutor` for an order that is not paid yet. -/
def purchase (state : ExecutorState) : Exec ExecutorState := do
  let versions ← d.preflight intent (some state.versions)
  if !(← sameHash H versions.json state.versions.json) then
    fail "Stored policy versions are immutable."
  let state ← obtainApproval d intent state
  payOrder H d intent state

/-- `runEconomyExecutor` for an order whose payment was submitted. -/
def recoverPayment (state : ExecutorState) : Exec ExecutorState := do
  let paymentHash ← d.recover state .pay
  enterPaid H intent state paymentHash

/-! ### Delivery -/

/-- Fetch the output of a paid order. -/
def collect (state : ExecutorState) (request : ServiceRequest) : Exec ExecutorState := do
  let result ← d.deliver request
  if result.state ≠ js "fulfilled" then
    fail "Paid delivery remains pending; retry the same input."
  if result.orderId ≠ intent.orderId.text ∨ result.serviceHash ≠ intent.serviceHash.text ∨
      some result.transactionHash ≠ state.paymentHash.map Bytes32.text then
    fail "Unbound provider output."
  match result.output with
  | none => fail "Value is not JSON"
  | some output => do
    let outputHash ← Prog.ofExcept (output.canonicalJsonHash H)
    if result.outputHash ≠ some outputHash.text then fail "Unbound provider output."
    Prog.ofExcept (output.validateSchemaValue H intent.definition.outputSchema (128 * 1024))
    let state := { state with
      output := some output, outputHash := some outputHash, phase := .delivered }
    persist intent state
    return state

/-- The stored output is the one whose hash was stored. -/
def checkOutput (state : ExecutorState) : Except JsError Unit :=
  match state.output with
  | none => JsError.raise "Value is not JSON"
  | some output => do
    if state.outputHash ≠ some (← output.canonicalJsonHash H) then
      JsError.raise "Stored output hash mismatch."

/-- Enter the phase `completed`. -/
def complete (state : ExecutorState) : Exec ExecutorState := do
  persist intent { state with phase := .completed }
  return { state with phase := .completed }

/-- The acknowledgment was submitted: wait for it. -/
def recoverAcknowledgment (state : ExecutorState) : Exec ExecutorState := do
  let hash ← d.recover state .ack
  if !(← d.verifyDelivery { state with acknowledgmentHash := some hash }) then
    fail "Acknowledgment not finalized."
  complete intent { state with acknowledgmentHash := some hash }

/-- Acknowledge the delivery. -/
def acknowledgeOutput (state : ExecutorState) : Exec ExecutorState := do
  let state := { state with phase := .acknowledging }
  persist intent state
  let hash ← d.acknowledge state
  complete intent { state with acknowledgmentHash := some hash }

/-- The end of `runEconomyExecutor` for a delivered order. -/
def acknowledgeDelivery (state : ExecutorState) : Exec ExecutorState := do
  Prog.ofExcept (checkOutput H state)
  let alreadyAcknowledged ← d.verifyDelivery state
  match state.phase with
  | .completed =>
    if alreadyAcknowledged then return state else fail "Acknowledgment not finalized."
  | .acknowledging => recoverAcknowledgment d intent state
  | _ =>
    if alreadyAcknowledged then complete intent state else acknowledgeOutput d intent state

/-- The stored request is the one for the stored terms. -/
def checkRequest (state : ExecutorState) : Except JsError ServiceRequest :=
  match state.request with
  | none => JsError.raise "Stored request is missing or differs from immutable terms."
  | some request => do
    let hash ← request.json.canonicalJsonHash H
    if hash ≠ (← (← state.requestFor H).json.canonicalJsonHash H) then
      JsError.raise "Stored request is missing or differs from immutable terms."
    return request

/-- `runEconomyExecutor` for a paid order. -/
def finish (reservation : Option Reservation) (state : ExecutorState) : Exec ExecutorState := do
  let request ← Prog.ofExcept (checkRequest H state)
  d.verifyPayment state
  (if reservation.isSome || state.phase = .paid then release else pure ())
  let state ← (if state.phase = .paid then collect H d intent state request else pure state)
  acknowledgeDelivery H d intent state

/-! ### The whole -/

/-- A stored state must be of the same input. -/
def checkStored (intentHash : Bytes32) (state : ExecutorState) : Except JsError Unit := do
  if state.intentHash ≠ intentHash then
    JsError.raise "Order intent is immutable; preserve the original input and journal."
  if (← state.intent.json.canonicalJsonHash H) ≠ intentHash then
    JsError.raise "Order intent is immutable; preserve the original input and journal."

/-- The stored state of the order, if there is one. -/
def loadState (intentHash : Bytes32) : Exec (Option ExecutorState) := do
  match ← read (perform (.readState intent.orderId)) with
  | none => return none
  | some state => do
    Prog.ofExcept (checkStored H intentHash state)
    return some state

/-- The reservation, which must not be that of another order. -/
def loadReservation : Exec (Option Reservation) := do
  let reservation ← read (perform .readReservation)
  if (reservation.map Reservation.orderId).any (· ≠ intent.orderId) then
    fail "Another order holds the allowance reservation; reconcile that order first."
  return reservation

/-- The stored state of the order, or the first one. -/
def openState (intentHash : Bytes32) (abortUnpaid : Bool) (stored : Option ExecutorState) :
    Exec ExecutorState :=
  match stored with
  | some state => return state
  | none => do
    if abortUnpaid then fail "No stored unpaid order to abort."
    let versions ← d.preflight intent none
    let state : ExecutorState := { intent, intentHash, versions, phase := .prepared }
    persist intent state
    return state

/-- Get an order paid that is not. -/
def obtainPayment (state : ExecutorState) : Exec ExecutorState :=
  match state.phase with
  | .prepared | .approving | .approved => purchase H d intent state
  | .paying => recoverPayment H d intent state
  | _ => return state

/-- `runEconomyExecutor` for an order that is not to be aborted. -/
def advance (reservation : Option Reservation) (state : ExecutorState) : Exec ExecutorState := do
  let state ← rewindApproval d intent state
  let state ← rewindPayment d intent state
  let state ← obtainPayment H d intent state
  finish H d intent reservation state

/-- `runEconomyExecutor` behind the lock file. -/
def session (abortUnpaid : Bool) : Exec ExecutorState := do
  let intentHash ← Prog.ofExcept (intent.json.canonicalJsonHash H)
  let stored ← loadState H intent intentHash
  (if abortUnpaid then pure () else d.authenticate intent)
  let reservation ← loadReservation intent
  let state ← openState d intent intentHash abortUnpaid stored
  if state.phase = .aborted then do
    d.verifyAborted state
    release
    return state
  else if abortUnpaid || state.phase = .aborting then abortOrder d intent state
  else advance H d intent reservation state

/-- `runEconomyExecutor(value, directory, d, {abortUnpaid})` -/
def runEconomyExecutor (value : Json) (abortUnpaid : Bool) :
    Prog (Locked Effect) (Locked.Answer Answer) JsError ExecutorState := do
  let intent ← Prog.ofExcept (ExecutorInput.parse H value)
  Prog.ofExcept (intent.check H)
  Locked.exclusive
    (.error (js "Executor locked; inspect the owning process before removing a stale lock."))
    (session H d intent abortUnpaid)

end Executor

end Obolos
