import Obolos.Runs.Engine
import Obolos.Crash.Statement

/-!
# The stores of the runs

`createRun`, `RunStore` of `store.ts` and `NeonDemoStore` of `demo-store.ts`.  Both stores keep an
intent beside the run while an action is going on: `inFlight` in the file, `in_flight` in the row.

`work` says what the effects do to the world: the file `runs.json`, the table
`platform_demo_runs`, the identifiers that were drawn, and the calls of the gateway.
-/

namespace Obolos

namespace Runs

open Json

/-! ### The world -/

/-- A call of the gateway. -/
inductive GatewayCall
  | discover (runId : JsString)
  | purchaseData (purchase : DataPurchase)
  | generateReport (runId : JsString)
  | verify (purchase : VerificationPurchase)

/-- The run a call is made for. -/
def GatewayCall.runId : GatewayCall → JsString
  | .discover runId => runId
  | .purchaseData purchase => purchase.runId
  | .generateReport runId => runId
  | .verify purchase => purchase.runId

/-- A row of `platform_demo_runs`. -/
structure Row where
  id : JsString
  owner : JsString
  run : Run
  inFlight : Option JsString

/-- The file, the table, the identifiers that were drawn, and the calls that were started. -/
structure World where
  records : List StoredRun
  rows : List Row
  uuids : List JsString
  calls : List GatewayCall

/-- Before the first run. -/
def World.empty : World := ⟨[], [], [], []⟩

/-- A call is started. -/
def World.call (d : World) (c : GatewayCall) : World := { d with calls := d.calls ++ [c] }

/-! ### Reading back -/

/-- An event as the store hands it out. -/
def AuditEvent.reread (layout : Json → Json) (event : AuditEvent) : AuditEvent :=
  match layout (.obj event) with
  | .obj fields => fields
  | _ => event

/-- A run as the store hands it out. -/
def Run.reread (layout : Json → Json) (run : Run) : Run :=
  { run with events := run.events.map (AuditEvent.reread layout) }

def StoredRun.reread (layout : Json → Json) (record : StoredRun) : StoredRun :=
  { record with run := record.run.reread layout }

/-- `JSON.parse(JSON.stringify(value))` -/
def Platform.fileLayout (P : Platform) (x : Json) : Json :=
  (parse P.readNumber (stringify P.host.numerals x)).getD x

/-- Where `RunStore` runs. -/
def Platform.withFile (P : Platform) (env : ProcessEnv) : Context := ⟨P, env, P.fileLayout⟩

/-- Where `NeonDemoStore` runs. -/
def Platform.withTable (P : Platform) (env : ProcessEnv) : Context := ⟨P, env, jsonb⟩

/-! ### The statements of `NeonDemoStore` -/

section Statements

variable (owner id marker : JsString) (run : Run)

/-- The row `owner=… AND id=…`. -/
def selectRow : Statement (List Row) JsError (Option Run) := .read fun rows =>
  (rows.find? fun row => row.owner = owner ∧ row.id = id).map Row.run

/-- `INSERT INTO platform_demo_runs … SELECT … WHERE …` -/
def insertRow : Statement (List Row) JsError Bool := fun rows =>
  if run.id ∈ rows.map Row.id then .error .other
  else if (rows.filter fun row => row.owner = owner).length < 50 ∧ rows.length < 500 then
    .ok (true, rows ++ [⟨run.id, owner, run.reread jsonb, none⟩])
  else .ok (false, rows)

/-- `UPDATE … SET in_flight=… WHERE … AND in_flight IS NULL RETURNING run` -/
def claimRow : Statement (List Row) JsError (Option Run) := fun rows =>
  let claimed (row : Row) : Bool := row.owner = owner ∧ row.id = id ∧ row.inFlight = none
  .ok ((rows.find? claimed).map Row.run,
    rows.map fun row => if claimed row then { row with inFlight := some marker } else row)

/-- The rows `id=… AND owner=… AND in_flight=…`. -/
def Row.held (row : Row) : Bool := row.id = id ∧ row.owner = owner ∧ row.inFlight = some marker

/-- `UPDATE … SET run=… WHERE … AND in_flight=…` -/
def saveFailed : Statement (List Row) JsError Unit := fun rows =>
  .ok ((), rows.map fun row =>
    if row.held owner id marker then { row with run := run.reread jsonb } else row)

/-- `UPDATE … SET run=…, in_flight=NULL WHERE … AND in_flight=… RETURNING id` -/
def saveResult : Statement (List Row) JsError Bool := fun rows =>
  .ok (rows.any fun row => row.held owner id marker, rows.map fun row =>
    if row.held owner id marker then { row with run := run.reread jsonb, inFlight := none }
    else row)

end Statements

/-- A statement of the world: it may be refused, and its answer may be lost. -/
def answers {α : Type} (d : World) (f : Statement (List Row) JsError α) (r : Except JsError α)
    (d' : World) : Prop :=
  ∃ rows, Statement.Answers (fun _ => True) f d.rows r rows ∧ d' = { d with rows := rows }

/-- What an effect does. -/
def work (d : World) : (o : Effect) → Except JsError (Answer o) → World → Prop
  | .now, r, d' => (∃ time, r = .ok time) ∧ d' = d
  | .randomUUID, r, d' =>
      ∃ id, r = .ok id ∧ id ∉ d.uuids ∧ d' = { d with uuids := id :: d.uuids }
  | .discover runId, _, d' => d' = d.call (.discover runId)
  | .purchaseData purchase, _, d' => d' = d.call (.purchaseData purchase)
  | .generateReport runId _, _, d' => d' = d.call (.generateReport runId)
  | .verify purchase, _, d' => d' = d.call (.verify purchase)
  | .readRuns, r, d' => (∀ records, r = .ok records → records = d.records) ∧ d' = d
  -- the file is renamed into place, or it is not
  | .writeRuns records, r, d' =>
      d' = { d with records := records } ∨ ((∃ e, r = .error e) ∧ d' = d)
  | .insertRow owner run, r, d' => answers d (insertRow owner run) r d'
  | .selectRow owner id, r, d' => answers d (selectRow owner id) r d'
  | .claimRow owner id marker, r, d' => answers d (claimRow owner id marker) r d'
  | .saveFailed owner id marker run, r, d' => answers d (saveFailed owner id marker run) r d'
  | .saveResult owner id marker run, r, d' => answers d (saveResult owner id marker run) r d'

/-- A gateway that answers. -/
structure Gateway where
  providers : List Provider
  data : DataPurchase → List RepoEvidence × Receipt
  summary : JsString
  checked : VerificationPurchase → Receipt × Option (List Check)

/-- A text that is not among the given ones. -/
def fresh (uuids : List JsString) : JsString :=
  List.replicate ((uuids.map List.length).foldr max 0 + 1) 97

theorem fresh_not_mem (uuids : List JsString) : fresh uuids ∉ uuids := by
  intro h
  have hle : ∀ l : List ℕ, ∀ n ∈ l, n ≤ l.foldr max 0 := by
    intro l
    induction l with
    | nil => exact fun n hn => (List.not_mem_nil hn).elim
    | cons m l ih =>
      intro n hn
      rcases List.mem_cons.1 hn with rfl | hn
      · exact le_max_left _ _
      · exact (ih n hn).trans (le_max_right _ _)
  have hlength := hle _ _ (List.mem_map_of_mem (f := List.length) h)
  rw [fresh, List.length_replicate] at hlength
  exact absurd hlength (Nat.not_succ_le_self _)

/-- Run a statement. -/
def execute {α : Type} (d : World) (f : Statement (List Row) JsError α) : Except JsError α × World :=
  match f d.rows with
  | .ok (a, rows) => (.ok a, { d with rows := rows })
  | .error e => (.error e, d)

/-- Answers to the effects when nothing fails. -/
def Gateway.respond (g : Gateway) (d : World) : (o : Effect) → Except JsError (Answer o) × World
  | .now => (.ok 0, d)
  | .randomUUID => (.ok (fresh d.uuids), { d with uuids := fresh d.uuids :: d.uuids })
  | .discover runId => (.ok g.providers, d.call (.discover runId))
  | .purchaseData purchase => (.ok (g.data purchase), d.call (.purchaseData purchase))
  | .generateReport runId _ => (.ok g.summary, d.call (.generateReport runId))
  | .verify purchase => (.ok (g.checked purchase), d.call (.verify purchase))
  | .readRuns => (.ok d.records, d)
  | .writeRuns records => (.ok (), { d with records := records })
  | .insertRow owner run => execute d (insertRow owner run)
  | .selectRow owner id => execute d (selectRow owner id)
  | .claimRow owner id marker => execute d (claimRow owner id marker)
  | .saveFailed owner id marker run => execute d (saveFailed owner id marker run)
  | .saveResult owner id marker run => execute d (saveResult owner id marker run)

theorem execute_answers {α : Type} (d : World) (f : Statement (List Row) JsError α) :
    answers d f (execute d f).1 (execute d f).2 := by
  unfold execute
  cases hf : f d.rows with
  | ok p => exact ⟨p.2, .done hf, rfl⟩
  | error e => exact ⟨d.rows, .refused hf, rfl⟩

theorem Gateway.respond_work (g : Gateway) (d : World) (o : Effect) :
    work d o (g.respond d o).1 (g.respond d o).2 := by
  cases o with
  | now => exact ⟨⟨0, rfl⟩, rfl⟩
  | randomUUID => exact ⟨_, rfl, fresh_not_mem _, rfl⟩
  | discover runId => rfl
  | purchaseData purchase => rfl
  | generateReport runId evidence => rfl
  | verify purchase => rfl
  | readRuns => exact ⟨fun records h => (Except.ok.inj h).symm, rfl⟩
  | writeRuns records => exact Or.inl rfl
  | insertRow owner run => exact execute_answers d _
  | selectRow owner id => exact execute_answers d _
  | claimRow owner id marker => exact execute_answers d _
  | saveFailed owner id marker run => exact execute_answers d _
  | saveResult owner id marker run => exact execute_answers d _

/-! ### `createRun` -/

/-- The input of `createRun`: the fields of `mandate` are optional. -/
structure RunInput where
  repos : List JsString
  dataBudgetAtomic : Option ℕ
  maxDataUnitPriceAtomic : Option ℕ
  verificationBudgetAtomic : Option ℕ
  allowedProviders : Option (List JsString)
  expiresAt : Option JsString
  verificationService : Option VerificationService

/-- `[A-Za-z0-9_.-]{1,100}` -/
def isRepoPart (s : JsString) : Bool :=
  decide (1 ≤ s.length ∧ s.length ≤ 100) && s.all fun c =>
    (48 ≤ c && c ≤ 57) || (65 ≤ c && c ≤ 90) || (97 ≤ c && c ≤ 122) || c == 95 || c == 46 || c == 45

/-- `repo.split('/')[1]` -/
def repoName (s : JsString) : JsString := (s.dropWhile (· != 47)).drop 1

/-- `/^[A-Za-z0-9_.-]{1,100}\/[A-Za-z0-9_.-]{1,100}$/` -/
def isRepo (s : JsString) : Bool :=
  isRepoPart (s.takeWhile (· != 47)) && s.contains 47 && isRepoPart (repoName s)

/-- `z.number().int().positive().max(100000000)` -/
def isAtomic (n : Option ℕ) : Bool := n.all fun n => decide (1 ≤ n ∧ n ≤ 100000000)

/-- `verificationServiceSchema` -/
def VerificationService.valid (P : Platform) (service : VerificationService) : Bool :=
  P.host.isUuid service.id && decide (1 ≤ service.revision) &&
    decide (1 ≤ service.name.length ∧ service.name.length ≤ 80) &&
      (readHex 40 service.recipient).isSome &&
        decide (1000 ≤ service.priceAtomic ∧ service.priceAtomic ≤ 1000000) &&
          (P.host.url service.endpoint).isSome && service.providerEndpoint.all P.isPublicEndpoint

/-- `inputSchema` -/
def RunInput.valid (P : Platform) (input : RunInput) : Bool :=
  decide (1 ≤ input.repos.length ∧ input.repos.length ≤ 3) && input.repos.all isRepo &&
    decide ((input.repos.map JsString.toLowerCase).Nodup) &&
      isAtomic input.dataBudgetAtomic && isAtomic input.maxDataUnitPriceAtomic &&
        isAtomic input.verificationBudgetAtomic &&
          input.allowedProviders.all (fun l => decide (l ≠ []) &&
            l.all fun p => p ∈ [js "repo-standard", js "repo-economy"]) &&
              input.expiresAt.all P.isDatetime && input.verificationService.all (·.valid P)

/-- The mandate of a new run. -/
def RunInput.mandate (input : RunInput) (expiresAt : JsString) : Mandate where
  dataBudgetAtomic := (input.dataBudgetAtomic.getD 2000000 : ℕ)
  maxDataUnitPriceAtomic := (input.maxDataUnitPriceAtomic.getD 150000 : ℕ)
  verificationBudgetAtomic := (input.verificationBudgetAtomic.getD 100000 : ℕ)
  allowedProviders := input.allowedProviders.getD [js "repo-standard", js "repo-economy"]
  expiresAt := input.expiresAt.getD expiresAt
  verificationService := input.verificationService
  version := 1

/-- A new run, without its first event. -/
def RunInput.run (input : RunInput) (id createdAt : JsString) (mandate : Mandate) : Run where
  id := id
  mode := .live
  title := js "Compare " ++ List.intercalate (js ", ") (input.repos.map repoName)
  repos := input.repos
  status := .ready
  stage := .mandate
  createdAt := createdAt
  updatedAt := createdAt
  mandate := mandate
  providers := []
  selectedProvider := none
  dataSpentAtomic := 0
  verificationSpentAtomic := 0
  evidence := []
  receipts := []
  events := []
  report := none
  approval := none
  shockApplied := false
  error := none
  authorizations := []

/-- One effect. -/
def perform (o : Effect) : Exec (Answer o) := Prog.await o

/-- `throw new Error(message)` -/
def raise {α : Type} (message : String) : Exec α := throw (.error (js message))

section Stores

variable (C : Context)

/-- `createRun(input)` -/
def createRun (input : RunInput) : Exec Run := do
  if input.valid C.toPlatform = false then throw .zod
  let now ← perform .now
  let hour ← perform .now
  let mandate := input.mandate (C.isoString (hour + 3600000))
  let expiry := C.host.dateParse mandate.expiresAt
  let early ← perform .now
  let late ← perform .now
  if expiry.any (fun t => t ≤ early) ∨ expiry.any (fun t => t > late + 86400000) then
    raise "Mandate expiry must be within the next 24 hours."
  let id ← perform .randomUUID
  let run := input.run id (C.isoString now) mandate
  let (result, run) ← log C .supervisor .info (js "Mandate created")
    (js "Up to " ++ C.number (C.quotient mandate.dataBudgetAtomic 100000000) ++
      js " HBAR for evidence and " ++
        C.number (C.quotient mandate.verificationBudgetAtomic 1000000) ++
          js " USDC for verification. Expires " ++ mandate.expiresAt ++ js ".") run
  Prog.ofExcept result
  return run

/-! ### `RunStore` -/

namespace RunStore

/-- `this.read()` -/
def read : Exec (List StoredRun) := do
  let records ← tryCatch (perform .readRuns) fun _ =>
    raise "Run storage could not be read. No actions were executed."
  return records.map (StoredRun.reread C.layout)

/-- `records.find(x => x.owner === owner && x.run.id === id)`, with what is before and after. -/
def locate (owner id : JsString) :
    List StoredRun → Option (List StoredRun × StoredRun × List StoredRun)
  | [] => none
  | x :: rest =>
    if x.owner = owner ∧ x.run.id = id then some ([], x, rest)
    else (locate owner id rest).map fun p => (x :: p.1, p.2)

theorem locate_eq_some {owner id : JsString} {records before after : List StoredRun}
    {record : StoredRun} (h : locate owner id records = some (before, record, after)) :
    records = before ++ record :: after ∧ record.owner = owner ∧ record.run.id = id ∧
      ∀ x ∈ before, ¬ (x.owner = owner ∧ x.run.id = id) := by
  induction records generalizing before with
  | nil => cases h
  | cons x rest ih =>
    unfold locate at h
    split_ifs at h with hx
    · cases h
      exact ⟨rfl, hx.1, hx.2, fun y hy => (List.not_mem_nil hy).elim⟩
    · obtain ⟨⟨b, r, a⟩, hrest, heq⟩ := Option.map_eq_some_iff.1 h
      cases heq
      obtain ⟨rfl, howner, hid, hbefore⟩ := ih hrest
      refine ⟨rfl, howner, hid, fun y hy => ?_⟩
      rcases List.mem_cons.1 hy with rfl | hy
      · exact hx
      · exact hbefore y hy

/-- The error of an interrupted operation. -/
def interrupted : JsString := js "The server restarted during an operation. Reconcile the broker payment journal before starting another job; this operation will not be retried."

/-- A run whose operation was interrupted. -/
def interrupt (run : Run) (stage : Stage) (startedAt id timestamp : JsString) : Run :=
  { run with
    status := .failed
    error := some interrupted
    events := appendAudit C.host.numerals C.sha run.events id timestamp .broker .blocked
      (js "Interrupted operation")
      (stage.text ++ js " started at " ++ startedAt ++ js ". " ++ interrupted) }

/-- `this.recover(record)` -/
def recover (record : StoredRun) : Exec StoredRun :=
  match record.inFlight with
  | none => return record
  | some (stage, startedAt) => do
    let id ← perform .randomUUID
    let timestamp ← perform .now
    return { record with
      run := interrupt C record.run stage startedAt id (C.isoString timestamp)
      inFlight := none }

/-- `insert(owner, run)` -/
def insert (owner : JsString) (run : Run) : Exec Run := do
  let records ← read C
  if 50 ≤ (records.filter fun x => x.owner = owner).length then
    raise "This session has reached 50 jobs. Export your records and start a new browser session."
  if 500 ≤ records.length then
    raise "This demo server has reached its run capacity. Ask the operator to archive the data."
  perform (.writeRuns (records ++ [⟨owner, run, none⟩]))
  return run

/-- `get(owner, id)` -/
def get (owner id : JsString) : Exec Run := do
  let records ← read C
  match locate owner id records with
  | none => raise "Run not found."
  | some (_, record, _) => return (← recover C record).run

/-- `mutate(owner, id, action)` -/
def mutate (owner id : JsString) (action : Engine Unit) : Exec Run := do
  let records ← read C
  match locate owner id records with
  | none => raise "Run not found."
  | some (before, record, after) =>
    let record ← recover C record
    let startedAt ← perform .now
    perform (.writeRuns (before ++
      { record with inFlight := some (record.run.stage, C.isoString startedAt) } :: after))
    -- the action changes the run of the record in place
    let (result, run) ← action record.run
    let done := before ++ { record with run := run } :: after
    tryCatch (do
      Prog.ofExcept result
      perform (.writeRuns done)
      return run) fun error => do
        perform (.writeRuns done)
        throw error

end RunStore

/-! ### `NeonDemoStore` -/

namespace NeonDemoStore

/-- `insert(owner, run)` -/
def insert (owner : JsString) (run : Run) : Exec Run := do
  if !(← perform (.insertRow owner run)) then
    raise "Demo capacity reached. Export your records and ask the operator to archive old jobs."
  return run

/-- `get(owner, id)` -/
def get (owner id : JsString) : Exec Run := do
  match ← perform (.selectRow owner id) with
  | none => raise "Run not found."
  | some run => return run

/-- `mutate(owner, id, action)` -/
def mutate (owner id : JsString) (action : Engine Unit) : Exec Run := do
  let marker ← perform .randomUUID
  match ← perform (.claimRow owner id marker) with
  | none =>
    let _ ← get owner id
    raise "An operation is running or was interrupted. It will not be retried; reconcile before continuing."
  | some run =>
    let (result, run) ← action run
    match result with
    | .error error =>
      -- the action may have reached something outside: the intent stays
      perform (.saveFailed owner id marker { run with
        status := .failed
        error := some (js "Operation interrupted; manual reconciliation is required before any further action.") })
      throw error
    | .ok _ =>
      if !(← perform (.saveResult owner id marker run)) then
        raise "Operation result could not be saved; manual reconciliation is required."
      return run

end NeonDemoStore

end Stores

/-! ### The two systems -/

/-- A store: how it inserts, gets and mutates. -/
inductive Store
  | file | table
  deriving DecidableEq

namespace Store

/-- Where the store runs. -/
def context (P : Platform) (env : ProcessEnv) : Store → Context
  | .file => P.withFile env
  | .table => P.withTable env

def insert (C : Context) (owner : JsString) (run : Run) : Store → Exec Run
  | .file => RunStore.insert C owner run
  | .table => NeonDemoStore.insert owner run

def get (C : Context) (owner id : JsString) : Store → Exec Run
  | .file => RunStore.get C owner id
  | .table => NeonDemoStore.get owner id

def mutate (C : Context) (owner id : JsString) (action : Engine Unit) : Store → Exec Run
  | .file => RunStore.mutate C owner id action
  | .table => NeonDemoStore.mutate owner id action

/-- The operations on the runs of a store. -/
inductive Operation (P : Platform) (store : Store) : Exec Run → Prop
  | create (env : ProcessEnv) (owner : JsString) (input : RunInput) :
      Operation P store (do
        let run ← createRun (store.context P env) input
        store.insert (store.context P env) owner run)
  | get (env : ProcessEnv) (owner id : JsString) :
      Operation P store (store.get (store.context P env) owner id)
  | mutate (env : ProcessEnv) (owner id : JsString) (action : RunAction) :
      Operation P store (store.mutate (store.context P env) owner id
        (action.run (store.context P env)))

end Store

end Runs

end Obolos
