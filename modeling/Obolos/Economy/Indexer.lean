import Obolos.Crash.Transactions
import Obolos.Js.Json
import Obolos.Platform.Database

/-!
# The index of finalized events

`indexEconomy` runs in one transaction under an advisory lock: it reads the logs of the three
contracts in the blocks after its cursor, halving the range until there are few enough, inserts the
events it can decode, derives a snapshot, and moves the cursor.

The reads that choose the evidence (`Views.evidenceRoot`) and the derivation of the snapshot
(`Views.project`) are parameters: programs that read, call the client and insert observations
(`Derives`), and that may fail anywhere.  Tables of other modules are read as part of the outside.
-/

namespace Obolos

namespace Indexer

open Transactions (Effect Answer Schema)

/-! ### The tables -/

/-- A row of `economy_chain_events`; `chain_id` is the constant of the deployment schema. -/
structure EventRow where
  contractAddress : JsString
  transactionHash : JsString
  logIndex : ℕ
  blockNumber : ℕ
  blockHash : JsString
  blockTimestamp : ℕ
  eventName : JsString
  payload : Json

/-- The primary key of `economy_chain_events` -/
def EventRow.key (r : EventRow) : JsString × ℕ := (r.transactionHash, r.logIndex)

/-- The row of `economy_index_state` -/
structure IndexState where
  blockNumber : ℕ
  blockHash : JsString
  snapshot : Json

/-- A row of `economy_observations` -/
structure Observation where
  observationHash : JsString
  asset : JsString
  windowStart : ℤ
  windowEnd : ℤ
  inputRoot : JsString
  methodology : JsString
  metrics : Json
  settlementAddress : JsString

/-- The tables; `state` is the row of the deployment. -/
structure Tables where
  events : List EventRow
  state : Option IndexState
  observations : List Observation

/-- What a statement locks. -/
inductive Lock
  /-- `pg_try_advisory_xact_lock(732980126)` -/
  | indexer
  | state
  | event (key : JsString × ℕ)
  | observation (observationHash : JsString)

/-- The statements. -/
inductive Query
  /-- `SELECT … FROM economy_index_state WHERE settlement_address=… FOR UPDATE` -/
  | selectState
  /-- `INSERT INTO economy_chain_events … ON CONFLICT DO NOTHING` -/
  | insertEvent (row : EventRow)
  /-- `readEventHistory(…)`, all its pages -/
  | selectEvents (addresses : List JsString) (block : ℕ)
  /-- `SELECT metrics FROM economy_observations WHERE … ORDER BY created_at DESC LIMIT 1` -/
  | selectObservation (windowEnd : ℤ) (settlementAddress : JsString)
  /-- `INSERT INTO economy_observations … ON CONFLICT(observation_hash) DO NOTHING` -/
  | insertObservation (row : Observation)
  /-- `INSERT INTO economy_index_state … ON CONFLICT(settlement_address) DO UPDATE …` -/
  | putState (state : IndexState)

/-- The rows a statement returns. -/
abbrev Rows : Query → Type
  | .selectState => Option IndexState
  | .insertEvent _ => Unit
  | .selectEvents _ _ => List EventRow
  | .selectObservation _ _ => Option Observation
  | .insertObservation _ => Unit
  | .putState _ => Unit

/-- The order of `ORDER BY block_number,log_index` -/
def eventOrder (a b : EventRow) : Prop :=
  a.blockNumber < b.blockNumber ∨ a.blockNumber = b.blockNumber ∧ a.logIndex ≤ b.logIndex

instance : DecidableRel eventOrder := fun _ _ => inferInstanceAs (Decidable (_ ∨ _))

/-- The rows of `selectEvents` -/
def Tables.history (t : Tables) (addresses : List JsString) (block : ℕ) : List EventRow :=
  (t.events.filter fun r => decide (r.contractAddress ∈ addresses) &&
    decide (r.blockNumber ≤ block)).insertionSort eventOrder

/-- The database. -/
def schema : Schema Lock Tables Query ApiError Rows where
  locks
    | .selectState, t => if t.state.isSome then [.state] else []
    | .insertEvent row, _ => [.event row.key]
    | .insertObservation row, _ => [.observation row.observationHash]
    | .putState _, _ => [.state]
    | _, _ => []
  run
    | .selectState, t => .ok (t.state, fun t => t)
    | .insertEvent row, t =>
      if t.events.any fun r => r.key = row.key then .ok ((), fun t => t)
      else .ok ((), fun t => { t with events := t.events ++ [row] })
    | .selectEvents addresses block, t => .ok (t.history addresses block, fun t => t)
    | .selectObservation windowEnd settlementAddress, t =>
      .ok ((t.observations.filter fun r => decide (r.asset = js "USDC") &&
        decide (r.windowEnd = windowEnd) &&
          decide (r.settlementAddress = settlementAddress)).getLast?, fun t => t)
    | .insertObservation row, t =>
      if t.observations.any fun r => r.observationHash = row.observationHash then
        .ok ((), fun t => t)
      else .ok ((), fun t => { t with observations := t.observations ++ [row] })
    | .putState state, _ => .ok ((), fun t => { t with state := some state })

/-! ### The client -/

/-- A log, as the client returns it. -/
structure Log where
  address : JsString
  blockNumber : Option ℕ
  blockHash : Option JsString
  transactionHash : Option JsString
  logIndex : Option ℕ
  removed : Bool
  data : JsString
  topics : List JsString

/-- A block, as the client returns it. -/
structure Block where
  number : Option ℕ
  hash : Option JsString
  timestamp : ℕ

/-- The calls of the client.  `other` are the contract reads and the tables of other modules. -/
inductive Call
  | getChainId
  | getBlock (blockNumber : ℕ)
  /-- `getBlock({blockTag: 'finalized'})` -/
  | finalizedBlock
  | getLogs (address : JsString) (fromBlock toBlock : ℕ)
  | other (request : Json)

/-- The answers of the client. -/
abbrev CallAnswer : Call → Type
  | .getChainId => ℕ
  | .getBlock _ => Block
  | .finalizedBlock => Block
  | .getLogs _ _ _ => List Log
  | .other _ => Json

/-- Programs with these effects. -/
abbrev Exec (α : Type) := Prog (Effect Lock Query Call) (Answer Rows CallAnswer) ApiError α

/-- `db.query(…)` -/
def query (q : Query) : Exec (Rows q) :=
  Prog.await (Effect.statement q : Effect Lock Query Call)

/-- `db.query('BEGIN')` -/
def begin : Exec Unit := Prog.await (Effect.begin : Effect Lock Query Call)

/-- `SELECT pg_try_advisory_xact_lock(732980126) AS acquired` -/
def tryLock : Exec Bool := Prog.await (Effect.tryLock .indexer : Effect Lock Query Call)

/-- `db.query('COMMIT')` -/
def commit : Exec Unit := Prog.await (Effect.commit : Effect Lock Query Call)

/-- `db.query('ROLLBACK')` -/
def rollback : Exec Unit := Prog.await (Effect.rollback : Effect Lock Query Call)

/-- A call of the client. -/
def call (o : Call) : Exec (CallAnswer o) :=
  Prog.await (Effect.outside o : Effect Lock Query Call)

/-- `throw Error(message)` -/
def raise {α : Type} (message : String) : Exec α := throw (.thrown (.error (js message)))

/-! ### The deployment -/

/-- The three contracts, in the order they are read. -/
inductive Contract
  | policy | settlement | ledger
  deriving DecidableEq

def Contract.all : List Contract := [.policy, .settlement, .ledger]

/-- `EconomyDeployment`, and `decodeEventLog` with the interface of each contract.  The three
addresses are different. -/
structure Deployment where
  chainId : ℕ
  address : Contract → JsString
  fromBlock : ℕ
  /-- `decodeEventLog({abi, data, topics})`: the name and the arguments -/
  decode : Contract → JsString → List JsString → Option (JsString × Json)
  address_inj : ∀ c c', (address c).toLowerCase = (address c').toLowerCase → c = c'

/-- A program that calls the client and executes some of the statements, and catches no error. -/
inductive Derives {α : Type} (statements : Query → Prop) : Exec α → Prop
  | pure (a : α) : Derives statements (Pure.pure a)
  | throw (e : ApiError) : Derives statements (MonadExcept.throw e)
  | call (o : Call) {f : CallAnswer o → Exec α} (h : ∀ a, Derives statements (f a)) :
      Derives statements (call o >>= f)
  | query (q : Query) {f : Rows q → Exec α} (hq : statements q)
      (h : ∀ a, Derives statements (f a)) : Derives statements (query q >>= f)

/-- The statements of `projectWindow` and of the reads of the events -/
def Query.Projects : Query → Prop
  | .selectEvents _ _ => True
  | .selectObservation _ _ => True
  | .insertObservation _ => True
  | _ => False

/-- What the index derives from the events and the evidence. -/
structure Views where
  evidenceRoot : Exec JsString
  /-- The snapshot, for the block it is of. -/
  project : ℕ → Block → JsString → Exec Json
  evidenceRoot_derives : Derives (fun _ => False) evidenceRoot
  project_derives : ∀ last target root, Derives Query.Projects (project last target root)

/-! ### Reading the logs -/

/-- The logs of the three contracts in a range. -/
abbrev Batches := List (Contract × List Log)

variable (D : Deployment)

/-- `getLogs` for every contract. -/
def readBatches (fromBlock toBlock : ℕ) : List Contract → Exec Batches
  | [] => return []
  | c :: contracts => do
    let logs ← call (.getLogs (D.address c) fromBlock toBlock)
    return (c, logs) :: (← readBatches fromBlock toBlock contracts)

/-- `count` -/
def Batches.count (batches : Batches) : ℕ := (batches.map fun b => b.2.length).sum

/-- The loop `while(from<=to)`, where `to` is `from` plus a width of at most `fuel`. -/
def fetch (fromBlock : ℕ) : (fuel width : ℕ) → Exec (ℕ × Batches)
  | 0, width => do
    let batches ← readBatches D fromBlock (fromBlock + width) Contract.all
    return (fromBlock + width, batches)
  | fuel + 1, width => do
    let batches ← readBatches D fromBlock (fromBlock + width) Contract.all
    if batches.count ≤ 10000 ∨ width = 0 then return (fromBlock + width, batches)
    -- Adapt the range rather than making public log volume a permanent cursor stop.
    else fetch fromBlock fuel (width / 2)

/-! ### Inserting the events -/

/-- `blocks` -/
abbrev Blocks := List (ℕ × ℕ × JsString)

/-- `blocks.get(blockKey)`, after it was read. -/
def blockOf (blocks : Blocks) (blockNumber : ℕ) : Exec (Blocks × ℕ × JsString) := do
  match blocks.find? fun b => b.1 = blockNumber with
  | some b => return (blocks, b.2)
  | none =>
    let block ← call (.getBlock blockNumber)
    match block.hash with
    | none => raise "Invalid canonical block evidence"
    | some hash =>
      if block.number ≠ some blockNumber ∨ 2 ^ 53 - 1 < block.timestamp then
        raise "Invalid canonical block evidence"
      else return ((blockNumber, block.timestamp, hash) :: blocks, block.timestamp, hash)

/-- The body of the loop over the logs of a contract. -/
def insertLog (c : Contract) (fromBlock toBlock : ℕ) (blocks : Blocks) (log : Log) :
    Exec Blocks := do
  match log.blockNumber, log.logIndex, log.transactionHash, log.blockHash with
  | some blockNumber, some logIndex, some transactionHash, some blockHash =>
    if log.removed then raise "Unfinalized evidence"
    else if log.address.toLowerCase ≠ (D.address c).toLowerCase ∨ blockNumber < fromBlock ∨
        toBlock < blockNumber ∨ 2 ^ 53 - 1 < logIndex then
      raise "Log does not match the requested contract and finalized range"
    else
      match D.decode c log.data log.topics with
      | none => return blocks
      | some (eventName, args) =>
        let (blocks, timestamp, hash) ← blockOf blocks blockNumber
        if hash.toLowerCase ≠ blockHash.toLowerCase then
          raise "Log block hash differs from canonical finalized block"
        else
          query (.insertEvent ⟨(D.address c).toLowerCase, transactionHash, logIndex, blockNumber,
            blockHash, timestamp, eventName, args⟩)
          return blocks
  | _, _, _, _ => raise "Unfinalized evidence"

/-- The loop over the logs of a contract. -/
def insertLogs (c : Contract) (fromBlock toBlock : ℕ) (blocks : Blocks) : List Log → Exec Blocks
  | [] => return blocks
  | log :: logs => do
    let blocks ← insertLog D c fromBlock toBlock blocks log
    insertLogs c fromBlock toBlock blocks logs

/-- The loop over the contracts. -/
def insertBatches (fromBlock toBlock : ℕ) (blocks : Blocks) : Batches → Exec Unit
  | [] => return ()
  | (c, logs) :: batches => do
    let blocks ← insertLogs D c fromBlock toBlock blocks logs
    insertBatches fromBlock toBlock blocks batches

/-! ### The run -/

/-- What `indexEconomy` returns. -/
inductive Result
  /-- `{changed: false, busy: true}` -/
  | busy
  /-- `{changed: false}` -/
  | unchanged
  /-- `{changed: true, blockNumber, caughtUp, …}` -/
  | changed (blockNumber : ℕ) (caughtUp : Bool)

/-- The first check of the cursor: the block it is at. -/
def checkCursor : Option IndexState → Exec Unit
  | none => return ()
  | some state => do
    let prior ← call (.getBlock state.blockNumber)
    if prior.hash ≠ some state.blockHash then
      raise "Finalized chain history changed; manual index reconciliation required"
    else return ()

/-- `from` -/
def nextBlock : Option IndexState → ℕ
  | none => D.fromBlock
  | some state => state.blockNumber + 1

/-- Whether nothing has changed since the snapshot. -/
def upToDate (root : JsString) : Option IndexState → Bool
  | none => false
  | some state =>
    (match (state.snapshot.prop "evidenceRoot").bind Json.asStr with
      | some s => decide (s = root)
      | none => false) &&
    (match ((state.snapshot.prop "measurements").bind (Json.prop "capital")).bind
        (Json.prop "complete") with
      | some (.bool false) => false
      | _ => true)

/-- The logs of the next range, and its end; without new blocks the range is empty. -/
def nextBatches (state : Option IndexState) (finalized : ℕ) : Exec (ℕ × Batches) :=
  if finalized < nextBlock D state then
    match state with
    | some state => return (state.blockNumber, [])
    | none => throw (.thrown .other)
  else
    let width := min (nextBlock D state + 1999) finalized - nextBlock D state
    fetch D (nextBlock D state) width width

/-- `target` -/
def targetBlock (finalized : Block) (number last : ℕ) : Exec Block :=
  if last = number then return finalized else call (.getBlock last)

/-- The events of the range, the snapshot, and the cursor. -/
def advance (V : Views) (state : Option IndexState) (finalized : Block) (number : ℕ)
    (root : JsString) : Exec Result := do
  let (last, batches) ← nextBatches D state number
  let target ← targetBlock finalized number last
  match target.hash with
  | none => raise "Invalid finalized block evidence"
  | some hash =>
    if target.number ≠ some last then raise "Invalid finalized block evidence"
    else
      insertBatches D (nextBlock D state) last [] batches
      let snapshot ← V.project last target root
      query (.putState ⟨last, hash, snapshot⟩)
      commit
      return .changed last (last = number)

/-- The transaction, once the finalized block is known. -/
def refresh (V : Views) (state : Option IndexState) (finalized : Block) (number : ℕ) :
    Exec Result := do
  let root ← V.evidenceRoot
  if number < nextBlock D state ∧ upToDate root state then
    commit
    return .unchanged
  else advance D V state finalized number root

/-- The `try` block of `indexEconomy`. -/
def transaction (V : Views) : Exec Result := do
  if !(← tryLock) then
    rollback
    return .busy
  else
    let state ← query .selectState
    checkCursor state
    let finalized ← call .finalizedBlock
    match finalized.number with
    | none => raise "Finalized block is unavailable"
    | some number => refresh D V state finalized number

/-- The `catch` block. -/
def abandon (e : ApiError) : Exec Result := do
  rollback
  throw e

/-- `indexEconomy(db,deployment)` -/
def indexEconomy (V : Views) : Exec Result := do
  let chainId ← call .getChainId
  if chainId ≠ D.chainId then raise "Wrong economy chain"
  else
    begin
    tryCatch (transaction D V) abandon

end Indexer

end Obolos
