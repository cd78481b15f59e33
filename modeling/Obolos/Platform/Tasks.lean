import Obolos.Crash.System
import Obolos.Economy.Availability
import Obolos.Economy.OrderTable
import Obolos.Platform.TaskTable

/-!
# General tasks

The handlers of `platform/tasks.ts`.  An owner creates a task (`createTask`), approves its plan,
cancels it or has it tried again (`updateTask`); workers list the tasks of an agent
(`listRunnerTasks`), claim one (`claimTask`) and report a plan, a paid step, the end of the task or
that it is blocked (`updateRunnerTask`).  Most handlers read a row and update it in a second
statement, and can be overtaken in between.
-/

namespace Obolos

namespace GeneralTasks

open Marketplace (EconomyDeployment OrderRow)
open Tasks (TaskPlan createTaskPlan resolveTaskInput readBudget)

/-! ### Texts of requests -/

/-- `z.string().regex(/^0x[\da-f]{64}$/)` -/
def readHash (s : JsString) : Option Bytes32 := (readBytes32 s).filter fun b => b.text = s

/-- `[\da-f]` -/
def isHex (c : UInt16) : Bool := (48 ≤ c && c ≤ 57) || (97 ≤ c && c ≤ 102)

/-- `assertUuid(value)` -/
def isUuidText (s : JsString) : Bool :=
  let parts := s.toLowerCase.splitOn 45
  decide (parts.map List.length = [8, 4, 4, 4, 12]) && parts.all fun part => part.all isHex

/-- `/^[\x21-\x7e]{1,128}$/` -/
def isKey (s : JsString) : Bool :=
  decide (1 ≤ s.length ∧ s.length ≤ 128) && s.all fun c => 33 ≤ c && c ≤ 126

/-- `/^[A-Za-z0-9._:-]{1,128}$/` -/
def isWorkerId (s : JsString) : Bool :=
  decide (1 ≤ s.length ∧ s.length ≤ 128) &&
    s.all fun c => (48 ≤ c && c ≤ 58) || (65 ≤ c && c ≤ 90) || (97 ≤ c && c ≤ 122) ||
      c == 45 || c == 46 || c == 95

/-- `tokenSchema` -/
def isToken (s : JsString) : Bool := decide (s.length = 64) && s.all isHex

/-- A text with a property. -/
def accept (p : JsString → Bool) (s : JsString) : Option JsString := if p s then some s else none

/-- `z.string().trim().min(1).max(limit)` -/
def readTrimmed (limit : ℕ) (s : JsString) : Option JsString :=
  if 1 ≤ s.trim.length ∧ s.trim.length ≤ limit then some s.trim else none

/-! ### Requests -/

variable (H : Host)

/-- The input of `createTask`; the budget stays a text. -/
structure TaskInput where
  agentId : JsString
  instruction : JsString
  budgetAtomic : JsString

/-- The input as it is hashed. -/
def TaskInput.json (input : TaskInput) : Json :=
  .obj [(js "agentId", .str input.agentId), (js "instruction", .str input.instruction),
    (js "budgetAtomic", .str input.budgetAtomic)]

/-- The schema of `createTask`. -/
def readInput (value : Json) : Except JsError TaskInput := do
  let fields ← Json.strictFields ["agentId", "instruction", "budgetAtomic"] value
  let agentId ← Json.textField (accept H.isUuid) "agentId" fields
  let instruction ← Json.textField (readTrimmed 12000) "instruction" fields
  let budgetAtomic ← Json.textField
    (accept fun s => (readBudget s).toOption.isSome) "budgetAtomic" fields
  return { agentId, instruction, budgetAtomic }

/-- `ownerAction` -/
inductive OwnerAction
  | approve (planHash : Bytes32)
  | cancel
  | retry

/-- `ownerAction.parse(value)` -/
def OwnerAction.read (value : Json) : Except JsError OwnerAction :=
  match (value.prop "action").bind Json.asStr with
  | none => .error .zod
  | some action =>
    if action = js "approve" then do
      let fields ← Json.strictFields ["action", "planHash"] value
      let planHash ← Json.textField readHash "planHash" fields
      return .approve planHash
    else if action = js "cancel" then do
      let _ ← Json.strictFields ["action"] value
      return .cancel
    else if action = js "retry" then do
      let _ ← Json.strictFields ["action"] value
      return .retry
    else .error .zod

/-- The schema of `claimTask`: the worker. -/
def readClaim (value : Json) : Except JsError JsString := do
  let fields ← Json.strictFields ["action", "workerId"] value
  Json.literalField "claim" "action" fields
  Json.textField (accept isWorkerId) "workerId" fields

/-- `runnerAction`, without the token. -/
inductive RunnerAction
  | plan (plan : Json)
  | progress (index : ℕ) (orderId : Bytes32)
  | complete
  | blocked (error : JsString)

/-- `z.number().int().min(0).max(4)` -/
def readStepIndex : Json → Option ℕ
  | .num q => if q.den = 1 ∧ 0 ≤ q.num ∧ q.num ≤ 4 then some q.num.toNat else none
  | _ => none

/-- `runnerAction.parse(value)`: the token, and the action. -/
def RunnerAction.read (value : Json) : Except JsError (JsString × RunnerAction) :=
  match (value.prop "action").bind Json.asStr with
  | none => .error .zod
  | some action =>
    if action = js "plan" then do
      let fields ← Json.strictFields ["action", "claimToken", "plan"] value
      let claimToken ← Json.textField (accept isToken) "claimToken" fields
      return (claimToken, .plan ((Json.get (js "plan") fields).getD .null))
    else if action = js "progress" then do
      let fields ← Json.strictFields ["action", "claimToken", "index", "orderId"] value
      let claimToken ← Json.textField (accept isToken) "claimToken" fields
      let index ← Json.field readStepIndex "index" fields
      let orderId ← Json.textField readHash "orderId" fields
      return (claimToken, .progress index orderId)
    else if action = js "complete" then do
      let fields ← Json.strictFields ["action", "claimToken"] value
      let claimToken ← Json.textField (accept isToken) "claimToken" fields
      return (claimToken, .complete)
    else if action = js "blocked" then do
      let fields ← Json.strictFields ["action", "claimToken", "error"] value
      let claimToken ← Json.textField (accept isToken) "claimToken" fields
      let error ← Json.textField (readTrimmed 2000) "error" fields
      return (claimToken, .blocked error)
    else .error .zod

/-! ### Plans and steps -/

/-- A plan as a JSON value. -/
def planJson (plan : TaskPlan) : Json :=
  .obj [(js "version", .num 1), (js "summary", .str plan.summary),
    (js "steps", .arr (plan.steps.map fun step => .obj
      [(js "serviceHash", .str step.definition.serviceHash.text),
        (js "definition", step.definition.json), (js "input", step.input)])),
    (js "totalAtomic", .str (JsString.decimal plan.totalAtomic))]

/-- `plan.steps` -/
def stepsOf (plan : Json) : List Json := ((plan.prop "steps").bind Json.asArr).getD []

/-- `taskStepOrderId(taskId, planHash, index)`; the index is below five. -/
def taskStepOrderId (taskId : JsString) (planHash : Bytes32) (index : ℕ) : Bytes32 :=
  H.textHash (js "obolos.task.v1:" ++ taskId.toLowerCase ++ js ":" ++ planHash.text ++ js ":" ++
    JsString.decimal index)

/-- `TaskStepResult` -/
structure TaskStepResult where
  index : ℕ
  orderId : Bytes32
  transactionHash : Bytes32
  outputHash : Bytes32
  output : Json

/-- A result as a JSON value. -/
def TaskStepResult.json (result : TaskStepResult) : Json :=
  .obj [(js "index", .num result.index), (js "orderId", .str result.orderId.text),
    (js "transactionHash", .str result.transactionHash.text),
    (js "outputHash", .str result.outputHash.text), (js "output", result.output)]

/-! ### Effects -/

/-- What the handlers wait for. -/
inductive Effect
  /-- `SELECT user_id FROM platform_agents WHERE id=…` -/
  | selectOwner (agentId : JsString)
  /-- `SELECT u.address,a.user_id FROM platform_agents a JOIN platform_users u ON …` -/
  | selectAddress (agentId : JsString)
  /-- `SELECT id FROM platform_agents WHERE id=… AND user_id=… FOR UPDATE` -/
  | lockAgent (agentId userId : JsString)
  | insertTask (task : NewTask)
  | commit
  | selectByKey (userId agentId key : JsString)
  | selectOwned (userId id : JsString)
  | approveTask (id userId : JsString) (planHash : Bytes32) (revision : ℕ)
  | cancelTask (id userId : JsString) (revision : ℕ)
  | retryTask (id userId : JsString) (revision : ℕ)
  | selectTasks (agentId userId : JsString)
  | selectTask (id agentId userId : JsString)
  | claimTask (agentId worker token : JsString)
  | selectClaimed (agentId id token : JsString)
  | reportTask (id agentId token : JsString) (report : Report) (revision : ℕ)
  /-- `listEconomyServices()` -/
  | listEconomyServices
  /-- `SELECT o.* FROM economy_orders o JOIN platform_agents a ON … WHERE o.order_id=… AND
  o.user_id=… AND o.platform_agent_id=…` -/
  | selectPaidOrder (orderId : Bytes32) (userId agentId : JsString)
  | randomUUID
  /-- `randomBytes(32).toString('hex')` -/
  | randomToken
  /-- `Date.now()` -/
  | dateNow

/-- The answers. -/
abbrev Answer : Effect → Type
  | .selectOwner _ => Option JsString
  | .selectAddress _ => Option (JsString × JsString)
  | .lockAgent _ _ => Unit
  | .insertTask _ => Option TaskRow
  | .commit => Unit
  | .selectByKey _ _ _ => Option TaskRow
  | .selectOwned _ _ => Option TaskRow
  | .approveTask _ _ _ _ => Option TaskRow
  | .cancelTask _ _ _ => Option TaskRow
  | .retryTask _ _ _ => Option TaskRow
  | .selectTasks _ _ => List TaskRow
  | .selectTask _ _ _ => Option TaskRow
  | .claimTask _ _ _ => Option TaskRow
  | .selectClaimed _ _ _ => Option TaskRow
  | .reportTask _ _ _ _ _ => Option TaskRow
  | .listEconomyServices => List ServiceDefinition
  | .selectPaidOrder _ _ _ => Option OrderRow
  | .randomUUID => JsString
  | .randomToken => JsString
  | .dateNow => ℕ

/-- Programs with these effects. -/
abbrev Exec (α : Type) := Prog Effect Answer ApiError α

/-- One effect. -/
def perform (o : Effect) : Exec (Answer o) := Prog.await o

/-- `throw fail(message, code)` -/
def fail {α : Type} (message : String) (code : String) : Exec α :=
  throw (.platform 409 (js code) (js message))

/-- `throw fail(message)` -/
def conflict {α : Type} (message : String) : Exec α := fail message "TASK_CONFLICT"

/-- `throw new PlatformError(404, code, message)` -/
def notFound {α : Type} (code message : String) : Exec α :=
  throw (.platform 404 (js code) (js message))

/-- Library code that may throw. -/
def check {α : Type} (x : Except JsError α) : Exec α := Prog.ofExcept (ApiError.lift x)

/-- `assertUuid(value)` -/
def assertUuid (s : JsString) : Exec Unit :=
  if isUuidText s then pure () else notFound "NOT_FOUND" "Resource not found."

/-! ### The owner -/

/-- `requireOwnedAgent(userId, agentId)` -/
def requireOwnedAgent (userId agentId : JsString) : Exec Unit := do
  assertUuid agentId
  let owner ← perform (.selectOwner agentId.toLowerCase)
  if owner ≠ some userId then notFound "AGENT_NOT_FOUND" "Agent not found."

/-- `ownedRow(userId, id)` -/
def ownedRow (userId id : JsString) : Exec TaskRow := do
  assertUuid id
  match ← perform (.selectOwned userId id.toLowerCase) with
  | some row => return row
  | none => notFound "TASK_NOT_FOUND" "Task not found."

/-- The transaction of `createTask`: the inserted row. -/
def createTransaction (task : NewTask) : Exec (Option TaskRow) := do
  perform (.lockAgent task.agentId task.userId)
  let created ← perform (.insertTask task)
  perform .commit
  return created

/-- The answer of `createTask` when nothing was inserted. -/
def replayTask (task : NewTask) : Exec (TaskRow × Bool) := do
  match ← perform (.selectByKey task.userId task.agentId task.idempotencyKey) with
  | none =>
    fail "This agent has 25 open tasks. Finish or cancel an existing task first." "TASK_LIMIT"
  | some row =>
    if row.requestHash ≠ task.requestHash then
      conflict "This Idempotency-Key already belongs to a different request."
    return (row, true)

/-- `createTask(userId, value, key)`: the row of the task, and `replayed`. -/
def createTask (userId : JsString) (value : Json) (key : Option JsString) :
    Exec (TaskRow × Bool) := do
  let input ← check (readInput H value)
  match key.filter isKey with
  | none =>
    throw (.platform 400 (js "IDEMPOTENCY_REQUIRED")
      (js "Provide a stable Idempotency-Key for this task."))
  | some idempotencyKey => do
    requireOwnedAgent userId input.agentId
    let requestHash ← check (input.json.canonicalJsonHash H)
    let budgetAtomic ← check (readBudget input.budgetAtomic)
    let id ← perform .randomUUID
    let task : NewTask :=
      { id, userId, agentId := input.agentId.toLowerCase, instruction := input.instruction,
        budgetAtomic, idempotencyKey, requestHash }
    match ← createTransaction task with
    | some row => return (row, false)
    | none => replayTask task

/-- `updateTask` with the action `approve`. -/
def approve (userId : JsString) (row : TaskRow) (planHash : Bytes32) : Exec TaskRow := do
  match row.planHash, row.plan with
  | some hash, some plan => do
    if hash ≠ planHash then
      fail "The plan changed. Review the current plan before approving." "STALE_PLAN"
    if (← check (plan.canonicalJsonHash H)) ≠ planHash then
      fail "The plan changed. Review the current plan before approving." "STALE_PLAN"
    if row.approvedPlanHash = some planHash then return row
    else
      match ← perform (.approveTask row.id userId planHash row.revision) with
      | some row => return row
      | none => conflict "This task is no longer waiting for approval."
  | _, _ => fail "The plan changed. Review the current plan before approving." "STALE_PLAN"

/-- `updateTask` with the action `cancel`. -/
def cancel (userId : JsString) (row : TaskRow) : Exec TaskRow := do
  if row.status = .cancelled then return row
  else
    match ← perform (.cancelTask row.id userId row.revision) with
    | some row => return row
    | none =>
      conflict "Execution has started. Preserve this task to recover its existing payments."

/-- `updateTask` with the action `retry`. -/
def retry (userId : JsString) (row : TaskRow) : Exec TaskRow := do
  match ← perform (.retryTask row.id userId row.revision) with
  | some row => return row
  | none =>
    if row.status = .queued ∨ row.status = .approved ∨ row.status = .running then return row
    else conflict "Only a blocked task can be retried."

/-- `updateTask(userId, id, value)` -/
def updateTask (userId id : JsString) (value : Json) : Exec TaskRow := do
  let action ← check (OwnerAction.read value)
  let row ← ownedRow userId id
  match action with
  | .approve planHash => approve H userId row planHash
  | .cancel => cancel userId row
  | .retry => retry userId row

/-! ### The workers -/

/-- `listRunnerTasks(agentId, options)`: the address of the owner, and the rows. -/
def listRunnerTasks (agentId : JsString) (taskId : Option JsString) (identityOnly : Bool) :
    Exec (JsString × List TaskRow) := do
  assertUuid agentId
  match ← perform (.selectAddress agentId.toLowerCase) with
  | none => notFound "AGENT_NOT_FOUND" "Agent not found."
  | some (address, userId) =>
    if identityOnly then return (address, [])
    else
      match taskId with
      | some taskId => do
        assertUuid taskId
        match ← perform (.selectTask taskId.toLowerCase agentId.toLowerCase userId) with
        | none => notFound "TASK_NOT_FOUND" "Task not found."
        | some row => return (address, [row])
      | none => return (address, ← perform (.selectTasks agentId.toLowerCase userId))

/-- `claimTask(agentId, value)`: the claimed row. -/
def claimTask (agentId : JsString) (value : Json) : Exec (Option TaskRow) := do
  assertUuid agentId
  let worker ← check (readClaim value)
  let token ← perform .randomToken
  perform (.claimTask agentId.toLowerCase worker token)

/-- The step of an approved plan, its definition and the input of its order, and its order. -/
structure PaidStep where
  planHash : Bytes32
  step : Json
  definition : ServiceDefinition
  input : Json
  orderId : Bytes32

/-- The first half of `verifyPaidStep`: what the order of a step has to be.  A plan that is stored
has steps with definitions, so these are parsed here. -/
def approvedStep (deployment : Option EconomyDeployment) (row : TaskRow) (index : ℕ) :
    Except ApiError PaidStep :=
  match row.plan, row.planHash with
  | some plan, some planHash => do
    if row.approvedPlanHash ≠ some planHash then
      ApiError.fail 409 "TASK_CONFLICT" "An owner-approved plan is required."
    if (← ApiError.lift (plan.canonicalJsonHash H)) ≠ planHash then
      ApiError.fail 409 "TASK_CONFLICT" "An owner-approved plan is required."
    match (stepsOf plan)[index]? with
    | none => ApiError.fail 409 "TASK_CONFLICT" "Invalid task step."
    | some step => do
      let definition ← ApiError.lift (ServiceDefinition.parse H ((step.prop "definition").getD .null))
      if ¬deployment.any fun deployment => Catalog.OfDeployment deployment definition then
        ApiError.fail 409 "TASK_CONFLICT"
          "The approved service belongs to another economy deployment."
      let input ← ApiError.lift (resolveTaskInput H ((step.prop "input").getD .null)
        ((row.stepResults.take index).map fun result => (result.prop "output").getD .null))
      ApiError.lift (input.validateSchemaValue H definition.inputSchema (64 * 1024))
      return { planHash, step, definition, input, orderId := taskStepOrderId H row.id planHash index }
  | _, _ => ApiError.fail 409 "TASK_CONFLICT" "An owner-approved plan is required."

/-- The second half of `verifyPaidStep`: the order is the one of the step, paid and delivered. -/
def deliveredStep (row : TaskRow) (index : ℕ) (paid : PaidStep) (order : OrderRow) :
    Except ApiError TaskStepResult := do
  let request ← ApiError.lift (ServiceRequest.validate H paid.definition order.request)
  if (← ApiError.lift (order.definition.canonicalJsonHash H)) ≠
        (← ApiError.lift (((paid.step.prop "definition").getD .null).canonicalJsonHash H)) ∨
      (paid.step.prop "serviceHash").bind Json.asStr ≠ some order.serviceHash.text ∨
      request.orderId ≠ paid.orderId ∨ request.agentId ≠ H.textHash row.agentId ∨
      request.inputHash ≠ (← ApiError.lift (paid.input.canonicalJsonHash H)) ∨
      order.requestHash ≠ (← ApiError.lift (request.json.canonicalJsonHash H)) ∨
      order.transactionHash ≠ request.transactionHash then
    ApiError.fail 409 "TASK_CONFLICT"
      "Paid order does not match the approved owner, agent, input and service."
  let _ ← ApiError.lift (request.verifyServiceSettlement H paid.definition order.receipt)
  let output := order.output.getD .null
  ApiError.lift (output.validateSchemaValue H paid.definition.outputSchema (128 * 1024))
  let outputHash ← ApiError.lift (output.canonicalJsonHash H)
  if order.outputHash ≠ some outputHash then
    ApiError.fail 409 "TASK_CONFLICT" "Delivered output hash does not match its body."
  return ⟨index, paid.orderId, order.transactionHash, outputHash, output⟩

/-- `verifyPaidStep(row, index)` -/
def verifyPaidStep (deployment : Option EconomyDeployment) (row : TaskRow) (index : ℕ) :
    Exec TaskStepResult := do
  let paid ← Prog.ofExcept (approvedStep H deployment row index)
  match ← perform (.selectPaidOrder paid.orderId row.userId row.agentId) with
  | none => fail "The approved service order has not delivered a paid result." "TASK_ORDER_PENDING"
  | some order =>
    if order.state ≠ .fulfilled then
      fail "The approved service order has not delivered a paid result." "TASK_ORDER_PENDING"
    Prog.ofExcept (deliveredStep H row index paid order)

/-- `verifiedStep(row, index)` -/
def verifiedStep (deployment : Option EconomyDeployment) (row : TaskRow) (index : ℕ) :
    Exec TaskStepResult :=
  tryCatch (verifyPaidStep H deployment row index) fun error =>
    match error with
    | .platform _ _ _ => throw error
    | _ =>
      fail "The order does not contain valid paid delivery evidence for this approved step."
        "TASK_ORDER_MISMATCH"

/-- `canonicalJson(a) === canonicalJson(b)` -/
def sameText (a b : Json) : Bool := Json.canonicalJson H.numerals a = Json.canonicalJson H.numerals b

/-- The report of a plan: nothing is left to do when it was submitted before. -/
def planReport (deployment : Option EconomyDeployment) (row : TaskRow) (value : Json) :
    Exec (Option Report) := do
  if row.claimPhase ≠ some .plan ∨ ¬(row.status = .planning ∨ row.status = .needsApproval) then
    conflict "A planning claim is required."
  let plan ← tryCatch (do
      let services ← perform .listEconomyServices
      let catalog := (deployment.map fun d => Catalog.serverCatalog d services).getD []
      check (createTaskPlan H value catalog (JsString.decimal row.budgetAtomic)))
    fun _ => throw (.platform 400 (js "INVALID_TASK_PLAN")
      (js ("The plan must use available services, valid inputs, earlier outputs and the approved " ++
        "budget.")))
  let planHash ← check ((planJson plan).canonicalJsonHash H)
  if row.status = .needsApproval then
    if row.planHash = some planHash then return none
    else conflict "A submitted plan cannot be replaced."
  else
    let now ← perform .dateNow
    -- `String(row.claim_until)` has no milliseconds.
    if row.claimUntil.any fun lease => decide (lease / 1000 * 1000 ≤ now) then
      conflict "The planning lease expired. Claim the task again."
    return some ⟨.needsApproval, some (planJson plan), some planHash, row.stepResults, none⟩

/-- The report of a paid step: nothing is left to do when it was reported before. -/
def progressReport (deployment : Option EconomyDeployment) (row : TaskRow) (taskId : JsString)
    (index : ℕ) (orderId : Bytes32) : Exec (Option Report) := do
  match row.planHash with
  | none => throw (.thrown .other)
  | some planHash => do
    if index > row.stepResults.length ∨ orderId ≠ taskStepOrderId H taskId planHash index then
      conflict "Progress must identify the next deterministic approved order."
    let result ← verifiedStep H deployment row index
    match row.stepResults[index]? with
    | some recorded =>
      if sameText H recorded result.json then return none
      else conflict "Recorded task results are immutable."
    | none =>
      return some ⟨row.status, row.plan, row.planHash, row.stepResults ++ [result.json], none⟩

/-- The loop over the results of a task that is complete. -/
def verifyResults (deployment : Option EconomyDeployment) (row : TaskRow) :
    (index : ℕ) → (results : List Json) → Exec Unit
  | _, [] => pure ()
  | index, recorded :: results => do
    let result ← verifiedStep H deployment row index
    if ¬sameText H result.json recorded then
      conflict "Recorded task result does not match its paid order."
    verifyResults deployment row (index + 1) results

/-- The report that a task is complete. -/
def completeReport (deployment : Option EconomyDeployment) (row : TaskRow) : Exec Report := do
  match row.plan with
  | none => throw (.thrown .other)
  | some plan => do
    if row.stepResults.length ≠ (stepsOf plan).length then
      conflict "Every approved step must have a verified paid result."
    verifyResults H deployment row 0 row.stepResults
    return ⟨.completed, row.plan, row.planHash, row.stepResults, none⟩

/-- What an action of a worker makes of the row it has read. -/
def runnerReport (deployment : Option EconomyDeployment) (row : TaskRow) (taskId : JsString) :
    RunnerAction → Exec (Option Report)
  | .plan value => planReport H deployment row value
  | .blocked error => do
    if ¬(row.status = .planning ∨ row.status = .running ∨ row.status = .blocked) then
      conflict "This task cannot be blocked by this claim."
    return some ⟨.blocked, row.plan, row.planHash, row.stepResults, some error⟩
  | .progress index orderId => do
    if row.claimPhase ≠ some .execute ∨ ¬(row.status = .running ∨ row.status = .completed) then
      conflict "An execution claim is required."
    progressReport H deployment row taskId index orderId
  | .complete => do
    if row.claimPhase ≠ some .execute ∨ ¬(row.status = .running ∨ row.status = .completed) then
      conflict "An execution claim is required."
    return some (← completeReport H deployment row)

/-- `updateRunnerTask(agentId, taskId, value)` -/
def updateRunnerTask (deployment : Option EconomyDeployment) (agentId taskId : JsString)
    (value : Json) : Exec TaskRow := do
  assertUuid agentId
  assertUuid taskId
  let (claimToken, action) ← check (RunnerAction.read value)
  match ← perform (.selectClaimed agentId.toLowerCase taskId.toLowerCase claimToken) with
  | none => fail "The task claim is invalid." "INVALID_TASK_CLAIM"
  | some row =>
    match ← runnerReport H deployment row taskId action with
    | none => return row
    | some report =>
      match ← perform (.reportTask row.id row.agentId claimToken report row.revision) with
      | some row => return row
      | none => conflict "The task changed concurrently. Read it and retry the same update."

/-! ### The system -/

/-- A request, by a user or with the key of an agent. -/
inductive Request
  | create (userId : JsString) (value : Json) (key : Option JsString)
  | update (userId id : JsString) (value : Json)
  | list (agentId : JsString) (taskId : Option JsString) (identityOnly : Bool)
  | claim (agentId : JsString) (value : Json)
  | report (agentId taskId : JsString) (value : Json)

/-- What is answered; of a row, the source shows the columns that `publicTask` picks. -/
inductive Response
  | created (row : TaskRow) (replayed : Bool)
  | updated (row : TaskRow)
  | listed (address : JsString) (rows : List TaskRow)
  | claimed (row : Option TaskRow)

/-- The handler of a request. -/
def handle (deployment : Option EconomyDeployment) : Request → Exec Response
  | .create userId value key => do
    let (row, replayed) ← createTask H userId value key
    return .created row replayed
  | .update userId id value => do return .updated (← updateTask H userId id value)
  | .list agentId taskId identityOnly => do
    let (address, rows) ← listRunnerTasks agentId taskId identityOnly
    return .listed address rows
  | .claim agentId value => do return .claimed (← claimTask agentId value)
  | .report agentId taskId value => do
    return .updated (← updateRunnerTask H deployment agentId taskId value)

/-- The values of a request were read with `JSON.parse`. -/
def Request.Parsed : Request → Prop
  | .create _ value _ => value.Distinct
  | .update _ _ value => value.Distinct
  | .list _ _ _ => True
  | .claim _ value => value.Distinct
  | .report _ _ value => value.Distinct

variable {ι : Type}

/-- An answer may be lost. -/
def Delivers {α : Type} (a : Except ApiError α) (r : Except ApiError α) : Prop :=
  r = a ∨ ∃ e, ApiError.lost e ∧ r = .error e

/-- What a statement does: it is lost, refused and entered in the history, or executed. -/
inductive Sends {α : Type} (f : Statement (TaskDb ι) ApiError α) (d : TaskDb ι) :
    Except ApiError α → TaskDb ι → Prop
  | unsent {e : ApiError} (broken : ApiError.lost e) : Sends f d (.error e) d
  | refused {e : ApiError} {r : Except ApiError α} (refused : f d = .error e)
      (answer : Delivers (.error e) r) : Sends f d r { d with refused := d.refused ++ [e] }
  | done {a : α} {d' : TaskDb ι} {r : Except ApiError α} (done : f d = .ok (a, d'))
      (answer : Delivers (.ok a) r) : Sends f d r d'

/-- `foreign_key_violation` -/
def foreignKeyViolation : ApiError := .database (js "23503")

section Transactions

variable [DecidableEq ι]

/-- What the statements of a `createTask` transaction of process `i` do: the lock is waited for, and
kept until the transaction ends. -/
inductive Locks (i : ι) (agentId userId : JsString) (d : TaskDb ι) :
    Except ApiError Unit → TaskDb ι → Prop
  | unsent {e : ApiError} (broken : ApiError.lost e) : Locks i agentId userId d (.error e) d
  | foreign (owner : d.owner agentId ≠ some userId) :
      Locks i agentId userId d (.error foreignKeyViolation) d
  | done {r : Except ApiError Unit} (owner : d.owner agentId = some userId)
      (free : ∀ c ∈ d.creating, c.agentId ≠ agentId ∧ c.process ≠ i)
      (answer : Delivers (.ok ()) r) :
      Locks i agentId userId d r { d with creating := d.creating ++ [⟨i, agentId, none⟩] }

/-- The transactions without that of a process. -/
def TaskDb.without (d : TaskDb ι) (i : ι) : List (Creating ι) :=
  d.creating.filter fun c => decide (c.process ≠ i)

/-- The insertion; if it is refused, the transaction is rolled back. -/
inductive Inserts (i : ι) (task : NewTask) (d : TaskDb ι) :
    Except ApiError (Option TaskRow) → TaskDb ι → Prop
  | unsent {e : ApiError} (broken : ApiError.lost e) : Inserts i task d (.error e) d
  | refused {e : ApiError} {r : Except ApiError (Option TaskRow)}
      (refused : insertTask task d = .error e) (answer : Delivers (.error e) r) :
      Inserts i task d r { d with creating := d.without i, refused := d.refused ++ [e] }
  | done {o : Option TaskRow} {r : Except ApiError (Option TaskRow)}
      (locked : ⟨i, task.agentId, none⟩ ∈ d.creating) (inserted : insertTask task d = .ok o)
      (answer : Delivers (.ok o) r) :
      Inserts i task d r { d with creating := d.without i ++ [⟨i, task.agentId, o⟩] }

/-- The end of the transaction: its row is in the table. -/
inductive Commits (i : ι) (d : TaskDb ι) : Except ApiError Unit → TaskDb ι → Prop
  | unsent {e : ApiError} (broken : ApiError.lost e) : Commits i d (.error e) d
  | empty {agentId : JsString} {r : Except ApiError Unit} (locked : ⟨i, agentId, none⟩ ∈ d.creating)
      (answer : Delivers (.ok ()) r) : Commits i d r { d with creating := d.without i }
  | done {agentId : JsString} {row : TaskRow} {r : Except ApiError Unit}
      (locked : ⟨i, agentId, some row⟩ ∈ d.creating) (answer : Delivers (.ok ()) r) :
      Commits i d r { d with tasks := d.tasks.insert row, creating := d.without i }

variable (J : Jsonb)

/-- What an effect of the process `i` does.  Values of the database were read with `JSON.parse`; a
token is drawn only once. -/
def sem (i : ι) (d : TaskDb ι) : (o : Effect) → Except ApiError (Answer o) → TaskDb ι → Prop
  | .selectOwner agentId, r, d' => d' = d ∧ ∀ o, r = .ok o → o = d.owner agentId
  | .selectAddress agentId, r, d' =>
    d' = d ∧ ∀ address userId, r = .ok (some (address, userId)) → d.owner agentId = some userId
  | .lockAgent agentId userId, r, d' => Locks i agentId userId d r d'
  | .insertTask task, r, d' => Inserts i task d r d'
  | .commit, r, d' => Commits i d r d'
  | .selectByKey userId agentId key, r, d' => Sends (selectByKey userId agentId key) d r d'
  | .selectOwned userId id, r, d' => Sends (selectOwned userId id) d r d'
  | .approveTask id userId planHash revision, r, d' =>
    Sends (approveTask H.numerals id userId planHash revision) d r d'
  | .cancelTask id userId revision, r, d' => Sends (cancelTask H.numerals id userId revision) d r d'
  | .retryTask id userId revision, r, d' => Sends (retryTask H.numerals id userId revision) d r d'
  | .selectTasks agentId userId, r, d' => Sends (selectTasks agentId userId) d r d'
  | .selectTask id agentId userId, r, d' => Sends (Statement.read fun d =>
      (d.tasks.get id).filter fun row => row.agentId = agentId ∧ row.userId = userId) d r d'
  | .claimTask agentId worker token, r, d' =>
    ∃ locked, Sends (claimTaskRow H.numerals locked agentId worker token) d r d'
  | .selectClaimed agentId id token, r, d' => Sends (selectClaimed agentId id token) d r d'
  | .reportTask id agentId token report revision, r, d' =>
    Sends (reportTask H.numerals J id agentId token report revision) d r d'
  | .listEconomyServices, r, d' =>
    d' = d ∧ ∀ services : List ServiceDefinition, r = .ok services → ∀ x ∈ services, x.Distinct
  | .selectPaidOrder orderId userId agentId, r, d' =>
    Sends (selectPaidOrder orderId userId agentId) d r d' ∧
      ∀ order : OrderRow, r = .ok (some order) → ∀ x, order.output = some x → x.Distinct
  | .randomUUID, _, d' => d' = d
  | .randomToken, r, d' => ∃ token, d.drawn token = none ∧ r = .ok token ∧
      d' = { d with drawn := Function.update d.drawn token (some i) }
  | .dateNow, _, d' => d' = d

/-- What becomes of the orders: their own handlers lose none, and leave the identity of an order and
an order that is fulfilled as they are. -/
def OrdersGo (orders orders' : OrderTable) : Prop :=
  ∀ orderId order, orders.get orderId = some order →
    ∃ order', orders'.get orderId = some order' ∧ order.Becomes order'

/-- Any number of requests.  The clock goes on, agents are created, orders are paid for and delivered,
and the database ends the transactions of lost connections. -/
def system (deployment : Option EconomyDeployment) :
    System ι (TaskDb ι) Effect Answer ApiError Response where
  sem := sem H J
  starts _ _ p := ∃ request : Request, request.Parsed ∧ p = handle H deployment request
  env _ d d' := (∃ now, d.now ≤ now ∧ d' = { d with now }) ∨
    (∃ owner, (∀ agentId userId, d.owner agentId = some userId → owner agentId = some userId) ∧
      d' = { d with owner }) ∨
    (∃ orders, OrdersGo d.orders orders ∧ d' = { d with orders }) ∨
    ∃ p : Creating ι → Bool, d' = { d with creating := d.creating.filter p }

end Transactions

end GeneralTasks

end Obolos
