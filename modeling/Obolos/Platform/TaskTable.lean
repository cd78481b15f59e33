import Obolos.Economy.OrderInvariant
import Obolos.Tasks.Plan

/-!
# The table of general tasks

The table `platform_tasks` of migration 017 with its constraints and its trigger, and the statements
that `platform/tasks.ts` sends to it.  An owner approves, cancels and retries a task; workers claim it
for two minutes under a token and report on it with the token.  Every `UPDATE` increments the
revision, and all but the claim name the revision that was read.  The orders that a worker has paid
for are in a table of their own (`OrderTable`), which is only read.

A task is created in a transaction of two statements: the row of its agent is locked, then the open
tasks of the agent are counted and the row is inserted.  `TaskDb.creating` are the transactions that
hold such a lock.
-/

namespace Obolos

namespace GeneralTasks

open Marketplace (OrderRow)

/-- The column `status`. -/
inductive TaskStatus
  | queued | planning | needsApproval | approved | running | completed | blocked | cancelled
  deriving DecidableEq, Repr

/-- The column `claim_phase`. -/
inductive ClaimPhase
  | plan | execute
  deriving DecidableEq, Repr

/-- What is given for a new task; the budget is a `numeric`, the identifiers are lower-case texts. -/
structure NewTask where
  id : JsString
  userId : JsString
  agentId : JsString
  instruction : JsString
  budgetAtomic : ℕ
  idempotencyKey : JsString
  requestHash : Bytes32
  deriving DecidableEq

/-- `CHECK(length(instruction) BETWEEN 1 AND 12000)` and `CHECK(budget_atomic > 0 AND budget_atomic <
power(2::numeric,256))`; the length is that of the characters. -/
structure NewTask.Allowed (task : NewTask) : Prop where
  instruction : 1 ≤ task.instruction.codePoints ∧ task.instruction.codePoints ≤ 12000
  budget : 0 < task.budgetAtomic ∧ task.budgetAtomic < 2 ^ 256

instance (task : NewTask) : Decidable task.Allowed :=
  decidable_of_iff ((1 ≤ task.instruction.codePoints ∧ task.instruction.codePoints ≤ 12000) ∧
      0 < task.budgetAtomic ∧ task.budgetAtomic < 2 ^ 256)
    ⟨fun ⟨h₁, h₂⟩ => ⟨h₁, h₂⟩, fun ⟨h₁, h₂⟩ => ⟨h₁, h₂⟩⟩

/-- What is written once, when the task is inserted. -/
structure TaskIdentity extends NewTask where
  createdAt : ℕ
  deriving DecidableEq

/-- A row of `platform_tasks`; times are in milliseconds. -/
structure TaskRow extends TaskIdentity where
  status : TaskStatus := .queued
  plan : Option Json := none
  planHash : Option Bytes32 := none
  approvedPlanHash : Option Bytes32 := none
  approvalExpiresAt : Option ℕ := none
  stepResults : List Json := []
  error : Option JsString := none
  claimToken : Option JsString := none
  claimWorker : Option JsString := none
  claimPhase : Option ClaimPhase := none
  claimUntil : Option ℕ := none
  executionWorker : Option JsString := none
  revision : ℕ := 0
  updatedAt : ℕ

namespace TaskRow

variable (N : Json.Numerals) (row : TaskRow) (now : ℕ)

/-! ### What the table has against a row -/

/-- `jsonb_array_length(plan->'steps')` is the number of results, if there is one. -/
def CountsSteps : Prop :=
  match row.plan.bind (Json.prop "steps") with
  | none => True
  | some (.arr steps) => row.stepResults.length = steps.length
  | some _ => False

instance : Decidable row.CountsSteps := by
  unfold CountsSteps
  cases row.plan.bind (Json.prop "steps") with
  | none => exact .isTrue trivial
  | some x =>
    cases x with
    | arr steps => exact inferInstanceAs (Decidable (_ = _))
    | _ => exact .isFalse id

/-- The constraints of the table; one that compares with `NULL` is met.  Those on the statuses, the
phases and the results are met by the types of the columns. -/
structure Consistent : Prop where
  terms : row.toNewTask.Allowed
  plan : row.plan.isSome = row.planHash.isSome
  approved : ∀ hash, row.approvedPlanHash = some hash →
    (row.planHash = none ∨ row.planHash = some hash) ∧ row.approvalExpiresAt.isSome = true
  authorized : row.status = .approved ∨ row.status = .running ∨ row.status = .completed →
    row.approvedPlanHash.isSome = true
  executed : row.status = .running ∨ row.status = .completed → row.executionWorker.isSome = true
  completed : row.status = .completed → row.CountsSteps

-- The hash is looked up: not all of them are tried.
instance decidableConsistent : Decidable row.Consistent :=
  decidable_of_iff (row.toNewTask.Allowed ∧ row.plan.isSome = row.planHash.isSome ∧
      (row.approvedPlanHash.all fun hash => decide ((row.planHash = none ∨ row.planHash = some hash) ∧
        row.approvalExpiresAt.isSome = true)) = true ∧
      (row.status = .approved ∨ row.status = .running ∨ row.status = .completed →
        row.approvedPlanHash.isSome = true) ∧
      (row.status = .running ∨ row.status = .completed → row.executionWorker.isSome = true) ∧
      (row.status = .completed → row.CountsSteps))
    ⟨fun ⟨h₀, h₁, h₂, h₃, h₄, h₅⟩ => ⟨h₀, h₁, fun hash h =>
        of_decide_eq_true ((Option.all_eq_true _ _).1 h₂ hash h), h₃, h₄, h₅⟩,
      fun ⟨h₀, h₁, h₂, h₃, h₄, h₅⟩ => ⟨h₀, h₁, (Option.all_eq_true _ _).2 fun hash h =>
        decide_eq_true (h₂ hash h), h₃, h₄, h₅⟩⟩

/-- What the trigger `platform_task_terms` accepts in the place of a row.  Two `jsonb` values are the
same if their canonical texts are. -/
structure Replaces (old new : TaskRow) : Prop where
  terms : { new.toNewTask with id := old.id } = old.toNewTask
  approved : old.approvedPlanHash.isSome = true →
    new.plan.map (Json.canonicalJson N) = old.plan.map (Json.canonicalJson N) ∧
      new.planHash = old.planHash ∧ new.approvedPlanHash = old.approvedPlanHash ∧
      new.approvalExpiresAt = old.approvalExpiresAt
  executed : old.executionWorker.isSome = true → new.executionWorker = old.executionWorker
  appends : old.stepResults.map (Json.canonicalJson N) <+: new.stepResults.map (Json.canonicalJson N)

instance decidableReplaces (old new : TaskRow) : Decidable (Replaces N old new) :=
  decidable_of_iff ({ new.toNewTask with id := old.id } = old.toNewTask ∧
      (old.approvedPlanHash.isSome = true →
        new.plan.map (Json.canonicalJson N) = old.plan.map (Json.canonicalJson N) ∧
          new.planHash = old.planHash ∧ new.approvedPlanHash = old.approvedPlanHash ∧
          new.approvalExpiresAt = old.approvalExpiresAt) ∧
      (old.executionWorker.isSome = true → new.executionWorker = old.executionWorker) ∧
      old.stepResults.map (Json.canonicalJson N) <+: new.stepResults.map (Json.canonicalJson N))
    ⟨fun ⟨h₁, h₂, h₃, h₄⟩ => ⟨h₁, h₂, h₃, h₄⟩, fun ⟨h₁, h₂, h₃, h₄⟩ => ⟨h₁, h₂, h₃, h₄⟩⟩

/-- A new version of a row, with the next revision: the trigger comes before the constraints. -/
def checked (old new : TaskRow) : Except ApiError TaskRow := do
  let revision ← increment old.revision
  let row := { new with revision }
  if ¬Replaces N old row then .error .raised
  else if ¬row.Consistent then .error .checkViolation
  else .ok row

theorem checked_ok {old new : TaskRow} : checked N old new = .ok row ↔
    old.revision < int4Max ∧ row = { new with revision := old.revision + 1 } ∧
      Replaces N old row ∧ row.Consistent := by
  simp only [checked, bind_eq_ok, increment_ok]
  constructor
  · rintro ⟨_, ⟨hlt, rfl⟩, h⟩
    split_ifs at h with hreplaces hconsistent
    cases h
    exact ⟨hlt, rfl, hreplaces, hconsistent⟩
  · rintro ⟨hlt, rfl, hreplaces, hconsistent⟩
    exact ⟨_, ⟨hlt, rfl⟩, by rw [if_neg (not_not.2 hreplaces), if_neg (not_not.2 hconsistent)]⟩

/-! ### The new versions -/

/-- The owner approves the plan for an hour. -/
def approve : TaskRow :=
  { row with
    status := .approved, approvedPlanHash := row.planHash,
    approvalExpiresAt := some (now + 60 * 60 * 1000), claimUntil := none, error := none,
    updatedAt := now }

/-- The owner cancels the task. -/
def cancel : TaskRow :=
  { row with status := .cancelled, claimToken := none, claimUntil := none, updatedAt := now }

/-- The owner has a blocked task tried again. -/
def retry : TaskRow :=
  { row with
    status := if row.approvedPlanHash.isSome then .approved else .queued,
    error := none, claimUntil := none, updatedAt := now }

/-- The token of a claim: a worker that had the last one keeps its token. -/
def tokenFor (worker token : JsString) : JsString :=
  if row.claimWorker = some worker then row.claimToken.getD token else token

/-- What a claim of the row is for. -/
def phaseFor : ClaimPhase := if row.approvedPlanHash.isSome then .execute else .plan

/-- A worker claims the task for two minutes. -/
def claim (worker token : JsString) : TaskRow :=
  { row with
    status := if row.approvedPlanHash.isSome then .running else .planning,
    claimPhase := some row.phaseFor, claimToken := some (row.tokenFor worker token),
    claimWorker := some worker, claimUntil := some (now + 2 * 60 * 1000),
    executionWorker :=
      if row.approvedPlanHash.isSome then some (row.executionWorker.getD worker)
      else row.executionWorker,
    updatedAt := now }

/-- A worker reports, with the results and the plan as they are stored. -/
def report (status : TaskStatus) (plan : Option Json) (planHash : Option Bytes32)
    (stepResults : List Json) (error : Option JsString) : TaskRow :=
  { row with
    status, plan, planHash, stepResults, error, claimUntil := some (now + 2 * 60 * 1000),
    updatedAt := now }

/-- `status NOT IN ('completed','cancelled')` -/
def isOpen : Bool := row.status ≠ .completed ∧ row.status ≠ .cancelled

/-- The lease has run out, or it is the worker's. -/
def isFree (worker : JsString) : Bool :=
  row.claimUntil.all (fun lease => decide (lease < now)) || decide (row.claimWorker = some worker)

/-- The condition of a claim. -/
def claimable (worker : JsString) : Bool :=
  (decide (row.status = .queued ∨ row.status = .planning) && row.isFree now worker) ||
  (decide (row.status = .approved ∨ row.status = .running) &&
    row.executionWorker.all (fun w => decide (w = worker)) &&
    (row.executionWorker.isSome || row.approvalExpiresAt.any fun t => decide (now < t)) &&
    row.isFree now worker)

end TaskRow

/-- The row of a task that is inserted. -/
def NewTask.stored (task : NewTask) (now : ℕ) : TaskRow :=
  { task with createdAt := now, updatedAt := now }

/-! ### The database -/

/-- The tasks by their identifiers. -/
abbrev TaskTable := Table TaskRow JsString fun row => row.id

/-- A transaction that has locked the row of an agent, and the row it has inserted. -/
structure Creating (ι : Type) where
  process : ι
  agentId : JsString
  row : Option TaskRow

/-- A claim that was granted. -/
structure Grant where
  taskId : JsString
  worker : JsString
  token : JsString
  phase : ClaimPhase
  now : ℕ

/-- The orders that were paid, by their identifiers. -/
abbrev OrderTable := Table OrderRow Bytes32 fun row => row.orderId

/-- The two tables, the owners of the agents, the clock, and the transactions that create tasks.  The
last three are the history: who drew which token, which claims were granted, and which statements
the database has refused. -/
structure TaskDb (ι : Type) where
  tasks : TaskTable
  orders : OrderTable
  owner : JsString → Option JsString
  now : ℕ
  creating : List (Creating ι)
  drawn : JsString → Option ι
  granted : List Grant
  refused : List ApiError

variable {ι : Type} (N : Json.Numerals)

/-- A statement on the table. -/
def TaskDb.run {α : Type} (f : Statement TaskTable ApiError α) : Statement (TaskDb ι) ApiError α :=
  fun d => (f d.tasks).map fun x => (x.1, { d with tasks := x.2 })

/-- The number of open tasks of an agent. -/
def openCount (agentId : JsString) (tasks : TaskTable) : ℕ :=
  tasks.rows.countP fun row => decide (row.agentId = agentId) && row.isOpen

/-- The task has the owner, the agent and the idempotency key of the new one. -/
def NewTask.conflicts (task : NewTask) (row : TaskRow) : Bool :=
  row.userId = task.userId ∧ row.agentId = task.agentId ∧ row.idempotencyKey = task.idempotencyKey

/-- The identifier is in the table, or in a transaction that has not ended. -/
def TaskDb.taken (d : TaskDb ι) (id : JsString) : Bool :=
  (d.tasks.get id).isSome || d.creating.any fun c => c.row.any fun row => decide (row.id = id)

/-- `INSERT INTO platform_tasks(…) SELECT … WHERE (SELECT count(*) FROM platform_tasks WHERE
agent_id=… AND status NOT IN ('completed','cancelled'))<25 ON CONFLICT(user_id,agent_id,
idempotency_key) DO NOTHING RETURNING *`: the row, if one is inserted.  The constraints are checked
before the key. -/
def insertTask (task : NewTask) (d : TaskDb ι) : Except ApiError (Option TaskRow) :=
  if openCount task.agentId d.tasks < 25 then
    if ¬(task.stored d.now).Consistent then .error .checkViolation
    else if d.tasks.rows.any task.conflicts then .ok none
    else if d.taken task.id then .error .uniqueViolation
    else .ok (some (task.stored d.now))
  else .ok none

/-- `SELECT t.* FROM platform_tasks t JOIN platform_agents a ON a.id=t.agent_id AND
a.user_id=t.user_id WHERE t.id=… AND t.user_id=…` -/
def selectOwned (userId id : JsString) : Statement (TaskDb ι) ApiError (Option TaskRow) :=
  Statement.read fun d => (d.tasks.get id).filter fun row =>
    d.owner row.agentId = some row.userId ∧ row.userId = userId

/-- `SELECT * FROM platform_tasks WHERE user_id=… AND agent_id=… AND idempotency_key=…` -/
def selectByKey (userId agentId key : JsString) : Statement (TaskDb ι) ApiError (Option TaskRow) :=
  Statement.read fun d => d.tasks.rows.find? fun row =>
    row.userId = userId ∧ row.agentId = agentId ∧ row.idempotencyKey = key

/-- `SELECT t.* FROM platform_tasks t JOIN platform_agents a ON … WHERE t.id=… AND t.agent_id=… AND
t.claim_token=…` -/
def selectClaimed (agentId id token : JsString) : Statement (TaskDb ι) ApiError (Option TaskRow) :=
  Statement.read fun d => (d.tasks.get id).filter fun row =>
    d.owner row.agentId = some row.userId ∧ row.agentId = agentId ∧ row.claimToken = some token

/-- `SELECT o.* FROM economy_orders o JOIN platform_agents a ON a.id=o.platform_agent_id AND
a.user_id=o.user_id WHERE o.order_id=… AND o.user_id=… AND o.platform_agent_id=…` -/
def selectPaidOrder (orderId : Bytes32) (userId agentId : JsString) :
    Statement (TaskDb ι) ApiError (Option OrderRow) :=
  Statement.read fun d => (d.orders.get orderId).filter fun order =>
    d.owner order.platformAgentId = some order.userId ∧ order.userId = userId ∧
      order.platformAgentId = agentId

/-- The statuses that come first in a listing. -/
def TaskRow.isPending (row : TaskRow) : Bool :=
  row.status = .queued ∨ row.status = .planning ∨ row.status = .approved ∨ row.status = .running

/-- `ORDER BY CASE WHEN status IN ('queued','planning','approved','running') THEN 0 ELSE 1 END,
created_at DESC,id` -/
def listedBefore (a b : TaskRow) : Prop :=
  (a.isPending = true ∧ b.isPending = false) ∨ a.isPending = b.isPending ∧
    (b.createdAt < a.createdAt ∨ a.createdAt = b.createdAt ∧ a.id.le b.id = true)

instance : DecidableRel listedBefore := fun _ _ => inferInstanceAs (Decidable (_ ∨ _))

/-- `SELECT * FROM platform_tasks WHERE agent_id=… AND user_id=… ORDER BY … LIMIT 100` -/
def selectTasks (agentId userId : JsString) : Statement (TaskDb ι) ApiError (List TaskRow) :=
  Statement.read fun d => ((d.tasks.rows.filter fun row =>
    row.agentId = agentId ∧ row.userId = userId).insertionSort listedBefore).take 100

/-- `UPDATE platform_tasks SET status='approved',… WHERE id=… AND user_id=… AND
status='needs_approval' AND plan_hash=… AND revision=… RETURNING *` -/
def approveTask (id userId : JsString) (planHash : Bytes32) (revision : ℕ) :
    Statement (TaskDb ι) ApiError (Option TaskRow) := fun d =>
  TaskDb.run (Table.update id
    (fun row => row.userId = userId ∧ row.status = .needsApproval ∧ row.planHash = some planHash ∧
      row.revision = revision)
    fun row => row.checked N (row.approve d.now)) d

/-- `UPDATE platform_tasks SET status='cancelled',… WHERE id=… AND user_id=… AND
execution_worker IS NULL AND status NOT IN ('completed','cancelled') AND revision=… RETURNING *` -/
def cancelTask (id userId : JsString) (revision : ℕ) :
    Statement (TaskDb ι) ApiError (Option TaskRow) := fun d =>
  TaskDb.run (Table.update id
    (fun row => row.userId = userId ∧ row.executionWorker = none ∧ row.isOpen = true ∧
      row.revision = revision)
    fun row => row.checked N (row.cancel d.now)) d

/-- `UPDATE platform_tasks SET status=CASE WHEN approved_plan_hash IS NOT NULL THEN 'approved' ELSE
'queued' END,… WHERE id=… AND user_id=… AND status='blocked' AND revision=… RETURNING *` -/
def retryTask (id userId : JsString) (revision : ℕ) :
    Statement (TaskDb ι) ApiError (Option TaskRow) := fun d =>
  TaskDb.run (Table.update id
    (fun row => row.userId = userId ∧ row.status = .blocked ∧ row.revision = revision)
    fun row => row.checked N (row.retry d.now)) d

/-- The order in which a worker claims tasks: those it had last, then the oldest. -/
def claimsBefore (worker : JsString) (a b : TaskRow) : Prop :=
  let rank := fun row : TaskRow => if row.claimWorker = some worker then 0 else 1
  rank a < rank b ∨ rank a = rank b ∧
    (a.createdAt < b.createdAt ∨ a.createdAt = b.createdAt ∧ a.id.le b.id = true)

instance (worker : JsString) : DecidableRel (claimsBefore worker) :=
  fun _ _ => inferInstanceAs (Decidable (_ ∨ _))

/-- `SELECT t.id FROM platform_tasks t JOIN … WHERE t.agent_id=… AND (…) ORDER BY … FOR UPDATE OF t
SKIP LOCKED LIMIT 1`; `locked` are the rows that other statements have locked. -/
def candidate (locked : JsString → Bool) (agentId worker : JsString) (d : TaskDb ι) :
    Option TaskRow :=
  ((d.tasks.rows.filter fun row =>
    decide (row.agentId = agentId ∧ d.owner row.agentId = some row.userId) &&
      row.claimable d.now worker && !locked row.id).insertionSort (claimsBefore worker)).head?

/-- `WITH candidate AS (…) UPDATE platform_tasks t SET … FROM candidate WHERE t.id=candidate.id
RETURNING t.*`; a claim is entered in the history. -/
def claimTaskRow (locked : JsString → Bool) (agentId worker token : JsString) :
    Statement (TaskDb ι) ApiError (Option TaskRow) := fun d =>
  match candidate locked agentId worker d with
  | none => .ok (none, d)
  | some row =>
    TaskDb.run (Table.update row.id (fun _ => true)
      fun row => row.checked N (row.claim d.now worker token))
      { d with granted := d.granted ++
          [⟨row.id, worker, row.tokenFor worker token, row.phaseFor, d.now⟩] }

/-- What a worker reports. -/
structure Report where
  status : TaskStatus
  plan : Option Json
  planHash : Option Bytes32
  results : List Json
  error : Option JsString

/-- The items of an array that is stored. -/
def storeItems (J : Jsonb) (items : List Json) : Option (List Json) :=
  (J.store (.arr items)).bind Json.asArr

/-- `UPDATE platform_tasks SET status=…,plan=…,plan_hash=…,step_results=…,error=…,… WHERE id=… AND
agent_id=… AND claim_token=… AND revision=… RETURNING *` -/
def reportTask (J : Jsonb) (id agentId token : JsString) (report : Report) (revision : ℕ) :
    Statement (TaskDb ι) ApiError (Option TaskRow) := fun d =>
  match report.plan.map J.store, storeItems J report.results with
  | some none, _ => .error .untranslatable
  | _, none => .error .untranslatable
  | plan, some results =>
    TaskDb.run (Table.update id
      (fun row => row.agentId = agentId ∧ row.claimToken = some token ∧ row.revision = revision)
      fun row => row.checked N
        (row.report d.now report.status plan.join report.planHash results report.error)) d

end GeneralTasks

end Obolos
