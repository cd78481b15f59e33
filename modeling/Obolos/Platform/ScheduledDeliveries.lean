import Obolos.Crash.System
import Obolos.Crash.Table
import Obolos.Hedera.SchedulePlans
import Obolos.Platform.Database

/-!
# Deliveries for scheduled payments

`scheduledRepositoryRequest` of `platform/hedera-commerce.ts`, and the table
`platform_scheduled_deliveries`: a buyer names the schedule that has paid for a round of its plan, and
gets the metadata of the repositories.  The schedule is the primary key of the table, so what was
delivered for it once is what is delivered for it again.

Requests run at the same time.  A query may fail after it was carried out (`Statement.Answers`).
-/

namespace Obolos

namespace Schedules

open Json
open DataService (isAccount)

/-! ### The table -/

/-- `platform_scheduled_deliveries.state` -/
inductive DeliveryState
  | pending
  | delivered
  deriving DecidableEq

/-- A row of `platform_scheduled_deliveries`. -/
structure DeliveryRow where
  scheduleId : JsString
  fingerprint : JsString
  state : DeliveryState
  evidence : Option Json
  proof : Json

/-- `platform_scheduled_deliveries` -/
abbrev Deliveries := Table DeliveryRow JsString DeliveryRow.scheduleId

/-- The columns that are inserted. -/
structure NewDelivery where
  scheduleId : JsString
  fingerprint : JsString
  evidence : List Json
  proof : Json

/-- The row, if its values can be stored. -/
def NewDelivery.row (J : Jsonb) (delivery : NewDelivery) : Option DeliveryRow := do
  let evidence ← J.store (.copied (.arr delivery.evidence))
  let proof ← J.store (.copied delivery.proof)
  return ⟨delivery.scheduleId, delivery.fingerprint, .delivered, some evidence, proof⟩

/-- `INSERT … ON CONFLICT(schedule_id) DO NOTHING RETURNING schedule_id` -/
def insertDelivery (J : Jsonb) (delivery : NewDelivery) :
    Statement Deliveries JsError (Option DeliveryRow) := fun t =>
  match delivery.row J with
  | none => .error .other
  | some row => Table.insertNew row (fun _ => none) t

/-! ### Requests -/

/-- The service: the environment of the process, and how the database stores values. -/
structure Service extends Context where
  /-- `process.env.HEDERA_PAY_TO` -/
  payTo : Option JsString
  column : Jsonb

/-- The request, after its schema. -/
structure ScheduledRequest where
  plan : Json
  round : ℕ
  scheduleId : JsString

/-- `z.number().int().nonnegative()` -/
def nonnegative : Json → Option ℕ := integerIn 0 (2 ^ 53 - 1)

/-- `z.object({plan, round, scheduleId}).strict().parse(value)`, with a plan that is there. -/
def readRequest (value : Json) : Except JsError ScheduledRequest := do
  let fields ← strictFields ["plan", "round", "scheduleId"] value
  let plan ← field some "plan" fields
  let round ← field nonnegative "round" fields
  let scheduleId ← textField (textThat isAccount) "scheduleId" fields
  return ⟨plan, round, scheduleId⟩

/-- What a request is answered. -/
inductive Response
  | refused (error : JsString) (status : ℕ)
  | delivered (evidence : Option Json) (proof : Json) (replayed : Bool)

/-- A response that was sent: what was asked, and the answer. -/
structure Sent where
  body : Except JsError Json
  response : Response

/-- What the code awaits. -/
inductive Effect
  | select (scheduleId : JsString)
  /-- `SELECT unit_price_atomic … WHERE provider_id='repo-standard'` -/
  | price
  /-- `fetch` of the schedule; `none` if it is not found. -/
  | schedule (scheduleId : JsString)
  /-- `fetch` of the transactions of a time; `none` if they are not found. -/
  | transactions (timestamp : JsString)
  | fetchRepoEvidence (repos : List JsString)
  | insert (delivery : NewDelivery)
  /-- The response leaves the process. -/
  | send (sent : Sent)

/-- What the code is answered. -/
@[reducible] def Answer : Effect → Type
  | .select _ => Option DeliveryRow
  | .price => Option ℕ
  | .schedule _ => Option Json
  | .transactions _ => Option Json
  | .fetchRepoEvidence _ => List Json
  | .insert _ => Option DeliveryRow
  | .send _ => Unit

/-- The code of the service. -/
abbrev Exec := Prog Effect Answer JsError

/-- One effect. -/
def perform (o : Effect) : Exec (Answer o) := Prog.await o

/-- `return json({error}, status)` -/
def refuse (error : String) (status : ℕ) : Exec Response := pure (.refused (js error) status)

variable (S : Service)

/-- `createHash('sha256').update(JSON.stringify([plan, round])).digest('hex')` -/
def fingerprint (plan : SchedulePlan) (round : ℕ) : JsString :=
  jsonHash S.toContext (.arr [plan.json, .num round])

/-- `/^\d+\.\d+$/` -/
def isTimestamp (s : JsString) : Bool :=
  let seconds := s.takeWhile JsString.isDigit
  match s.dropWhile JsString.isDigit with
  | 46 :: nanos => seconds != [] && nanos != [] && nanos.all JsString.isDigit
  | _ => false

/-- `schedule.executed_timestamp` as a text, when the payment has been executed; a schedule that is
`null` has no properties. -/
def executedAt : Json → Except JsError (Option JsString)
  | .null => .error .other
  | schedule => .ok ((schedule.prop "executed_timestamp").bind fun x =>
      if Circle.truthy (some x) && isTimestamp (x.text S.texts.host) then
        some (x.text S.texts.host)
      else none)

/-- The proof that is recorded. -/
def proofOf (plan : SchedulePlan) (request : ScheduledRequest) (schedule : Json) : Json :=
  .obj (Runs.Evidence.defined [("scheduleId", some (.str request.scheduleId)),
    ("consensusTimestamp", schedule.prop "executed_timestamp"), ("payer", some (.str plan.payer)),
    ("payTo", some (.str plan.payTo)), ("amountAtomic", some (.num plan.amount)),
    ("network", some (.str (js "hedera:testnet"))), ("asset", some (.str (js "HBAR"))),
    ("round", some (.num request.round))])

/-- Read the source for a payment that is proved, and record the delivery. -/
def deliver (plan : SchedulePlan) (request : ScheduledRequest) (schedule : Json) :
    Exec Response := do
  let evidence ← perform (.fetchRepoEvidence plan.repos)
  let proof := proofOf plan request schedule
  let inserted ← perform (.insert ⟨request.scheduleId, fingerprint S plan request.round, evidence,
    proof⟩)
  if inserted.isNone then
    refuse "Concurrent delivery recorded. Retrieve the same request again." 409
  else return .delivered (some (.arr evidence)) proof false

/-- Prove the payment of a schedule without a delivery. -/
def proveSchedule (plan : SchedulePlan) (request : ScheduledRequest) : Exec Response := do
  let price ← perform .price
  if price ≠ some plan.unitPriceAtomic then
    refuse "Resource price changed. No payment is initiated by this endpoint." 409
  else match ← perform (.schedule request.scheduleId) with
    | none => refuse "Schedule is not indexed yet." 409
    | some schedule =>
      match ← Prog.ofExcept (executedAt S schedule) with
      | none => refuse "Scheduled payment has not executed yet." 402
      | some timestamp =>
        match ← perform (.transactions timestamp) with
        | none => refuse "Scheduled transfer proof is not indexed yet." 409
        | some transfer => do
          Prog.ofExcept (validateScheduledProof S.toContext schedule transfer plan request.round
            request.scheduleId)
          deliver S plan request schedule

/-- Answer with the delivery of a schedule. -/
def replay (plan : SchedulePlan) (request : ScheduledRequest) (row : DeliveryRow) :
    Exec Response :=
  if row.fingerprint ≠ fingerprint S plan request.round then
    refuse "Schedule already belongs to a different resource request." 409
  else if row.state = .delivered then return .delivered row.evidence row.proof true
  else refuse "Delivery is pending; reconcile the original request." 409

/-- The request and its plan. -/
def readScheduled (body : Except JsError Json) :
    Except JsError (ScheduledRequest × SchedulePlan) := do
  let value ← body
  let request ← readRequest value
  let plan ← validateSchedulePlan S.toContext request.plan 0 true
  return (request, plan)

/-- A request and its plan. -/
def serveScheduled (request : ScheduledRequest) (plan : SchedulePlan) : Exec Response :=
  if some plan.payTo ≠ S.payTo then refuse "Schedule recipient is not this service." 400
  else if plan.count ≤ request.round then refuse "Invalid schedule round." 400
  else do
    match ← perform (.select request.scheduleId) with
    | some row => replay S plan request row
    | none => proveSchedule S plan request

/-- The response to an exception. -/
def failed : JsError → Response
  | .zod => .refused (js "Invalid scheduled resource request.") 400
  | _ => .refused (js "Scheduled proof or resource unavailable. No payment was initiated.") 503

/-- `scheduledRepositoryRequest(req)`; `body` is what `readJson(req)` returns or throws. -/
def scheduledRepositoryRequest (body : Except JsError Json) : Exec Response :=
  tryCatch (do
    let (request, plan) ← Prog.ofExcept (readScheduled S body)
    serveScheduled S request plan) fun e => pure (failed e)

/-- A request handler: it sends the response. -/
def handle (body : Except JsError Json) : Exec Response := do
  let response ← scheduledRepositoryRequest S body
  perform (.send ⟨body, response⟩)
  return response

/-! ### The system -/

/-- A row that a process has inserted, and whether it has got the answer. -/
structure Insertion (ι : Type) where
  process : ι
  row : DeliveryRow
  answered : Bool

/-- The table, who inserted its rows, and the responses that were sent. -/
structure World (ι : Type) where
  deliveries : Deliveries
  inserts : List (Insertion ι)
  sent : List Sent

variable {ι : Type}

/-- No deliveries. -/
def World.empty : World ι := ⟨Table.empty, [], []⟩

/-- The insertions of a statement that has taken one table to another. -/
def insertions (i : ι) (t t' : Deliveries) (scheduleId : JsString) (answered : Bool) :
    List (Insertion ι) :=
  match t.get scheduleId, t'.get scheduleId with
  | none, some row => [⟨i, row, answered⟩]
  | _, _ => []

/-- The exceptions of a broken connection. -/
def lost (e : JsError) : Prop := e ≠ .zod

/-- What an effect of process `i` answers and does. -/
def sem (i : ι) (d : World ι) : (o : Effect) → Except JsError (Answer o) → World ι → Prop
  | .select scheduleId, r, d' =>
    ∃ t, Statement.Answers lost (Statement.read fun t : Deliveries => t.get scheduleId) d.deliveries
      r t ∧ d' = { d with deliveries := t }
  | .insert delivery, r, d' =>
    ∃ t, Statement.Answers lost (insertDelivery S.column delivery) d.deliveries r t ∧
      d' = { d with
        deliveries := t
        inserts := d.inserts ++ insertions i d.deliveries t delivery.scheduleId r.isOk }
  | .send sent, r, d' => r = .ok () ∧ d' = { d with sent := d.sent ++ [sent] }
  | _, _, d' => d' = d

/-- Requests, any number at a time. -/
def system (ι : Type) [DecidableEq ι] :
    System ι (World ι) Effect Answer JsError Response where
  sem := sem S
  starts _ _ p := ∃ body, p = handle S body
  env _ _ _ := False

end Schedules

end Obolos
