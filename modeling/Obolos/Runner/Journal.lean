import Obolos.Crash.Exclusive
import Obolos.Crash.Method
import Obolos.Runs.Stores

/-!
# The journal of a runner

`RunnerJournal` keeps the jobs of a runner in one file of a private directory, behind the lock file
`runner.lock`.  It changes its copy of the jobs first, and then writes all of it to a new file that
is renamed; when that fails the journal is poisoned, and changes nothing any more.

`executeJob` starts a job in the journal before it executes anything.
-/

namespace Obolos

namespace Runner

open Runs (Run RunStatus)

/-! ### Jobs -/

/-- A signed mandate: the fields that the journal reads, and the text of the others. -/
structure SignedMandate where
  id : JsString
  maxRuns : ℚ
  terms : JsString
  deriving DecidableEq

/-- `RunnerJob` -/
structure RunnerJob where
  id : JsString
  agentId : JsString
  repos : List JsString
  mandate : SignedMandate
  deriving DecidableEq

/-- The state of an entry. -/
inductive EntryState
  | started | finished | acknowledged
  deriving DecidableEq

/-- `Entry` -/
structure Entry (H : Type) where
  job : RunnerJob
  fingerprint : H
  state : EntryState
  run : Run

/-- `Journal`, the content of the file. -/
structure Data (H : Type) where
  version : ℕ
  agentId : JsString
  jobs : List (Entry H)

/-- `fingerprint` of a job and of a mandate. -/
structure Fingerprints (H : Type) where
  job : RunnerJob → H
  mandate : SignedMandate → H

/-- The identifiers of the jobs. -/
def Data.ids {H : Type} (data : Data H) : List JsString := data.jobs.map fun e => e.job.id

/-- The file `journal.json`: there is none, it cannot be read, it is of no version and has no list
of jobs, or it has one. -/
inductive File (H : Type)
  | absent
  | corrupt
  | foreign
  | data (data : Data H)

/-- The identifiers of the jobs in the file. -/
def File.ids {H : Type} : File H → List JsString
  | .data j => j.ids
  | _ => []

/-- The directory, the runs that were advanced, and the jobs that have come into the file since the
lock file was last written. -/
structure Directory (H : Type) where
  file : File H
  executions : List JsString
  fresh : List JsString

/-- A directory without a journal. -/
def Directory.empty {H : Type} : Directory H := ⟨.absent, [], []⟩

/-- A file with this content takes the place of the file that is there. -/
def Directory.put {H : Type} (d : Directory H) (data : Data H) : Directory H :=
  { d with
    file := .data data
    fresh := d.fresh ++ data.ids.filter fun id => id ∉ d.file.ids }

/-! ### Effects -/

/-- What the code awaits. -/
inductive Effect (H : Type)
  /-- Write, sync and close the lock file. -/
  | writeLock
  /-- `readFile(join(directory, 'journal.json'))` -/
  | readJournal
  /-- Write, sync and close a new file. -/
  | writeTemp
  /-- `rename(path, join(directory, 'journal.json'))` of a file with this content -/
  | rename (data : Data H)
  | syncDirectory
  | randomUUID
  | now
  | validateJob (job : RunnerJob)
  | createRun (job : RunnerJob)
  | aborted
  | advanceRun (run : Run)

/-- What the code is answered. -/
@[reducible] def Answer {H : Type} : Effect H → Type
  | .readJournal => File H
  | .randomUUID => JsString
  | .now => ℤ
  | .createRun _ => Run
  | .aborted => Bool
  | .advanceRun _ => Run
  | _ => Unit

variable {H : Type} [DecidableEq H]

/-- What an effect does.  A call that fails may have had its effect. -/
def work (d : Directory H) : (o : Effect H) → Except JsError (Answer o) → Directory H → Prop
  | .writeLock, _, d' => d' = { d with fresh := [] }
  | .readJournal, r, d' => d' = d ∧ ∀ file, r = .ok file → file = d.file
  | .rename data, r, d' => (∃ e, r = .error e ∧ d' = d) ∨ d' = d.put data
  | .advanceRun run, _, d' => d' = { d with executions := d.executions ++ [run.id] }
  | _, _, d' => d' = d

/-! ### The journal -/

/-- `RunnerJournal` -/
structure RunnerJournal (H : Type) where
  closed : Bool
  poisoned : Bool
  data : Data H

/-- The code of the runner that works on a journal. -/
abbrev Exec (H : Type) := Method (Effect H) Answer JsError (RunnerJournal H)

/-- One effect. -/
def perform (o : Effect H) : Exec H (Answer o) := Method.await o

/-- `throw new Error(message)` -/
def fail {α : Type} (message : String) : Exec H α := throw (.error (js message))

/-- `this.assertHealthy()` -/
def assertHealthy : Exec H Unit := do
  let journal ← Method.self
  if journal.closed ∨ journal.poisoned then fail "Runner journal is closed or requires recovery."
  else pure ()

/-- `this.persist()` -/
def persist : Exec H Unit := do
  assertHealthy
  let journal ← Method.self
  tryCatch (do
      perform .writeTemp
      perform (.rename journal.data)
      perform .syncDirectory)
    fun e => do
      Method.modify fun journal => { journal with poisoned := true }
      throw e

/-- Change the data, and persist it. -/
def save (f : Data H → Data H) : Exec H Unit := do
  Method.modify fun journal => { journal with data := f journal.data }
  persist

/-- The statuses of a terminal run. -/
def isTerminal (status : RunStatus) : Bool :=
  status = .completed || status = .failed || status = .awaitingApproval

/-- The error of an interrupted job. -/
def uncertain : JsString := js "Execution interrupted; settlement may be uncertain. Reconcile the local broker journal manually. This job will never execute again."

variable (P : Runs.Platform) (F : Fingerprints H)

/-- `stopUncertain(run)`, with the times and the identifier of its event. -/
def stopped (run : Run) (updatedAt id timestamp : JsString) : Run :=
  { run with
    status := .failed
    updatedAt := updatedAt
    error := some uncertain
    events := Runs.appendAudit P.host.numerals P.sha run.events id timestamp .broker .blocked
      (js "Runner execution interrupted") uncertain }

/-- `stopUncertain(run)` -/
def stopUncertain (run : Run) : Exec H Run := do
  let updatedAt ← perform .now
  let id ← perform .randomUUID
  let timestamp ← perform .now
  return stopped P run (P.isoString updatedAt) id (P.isoString timestamp)

/-- The entry of a job. -/
def Data.find (data : Data H) (id : JsString) : Option (Entry H) :=
  data.jobs.find? fun e => e.job.id = id

/-- The entry of a job, changed. -/
def Data.update (data : Data H) (id : JsString) (f : Entry H → Entry H) : Data H :=
  { data with jobs := data.jobs.map fun e => if e.job.id = id then f e else e }

/-- The first check of `open`. -/
def pinned (agentId : JsString) (data : Data H) : Bool :=
  data.version == 1 && decide (data.agentId = agentId)

/-- The second check of `open`. -/
def integrity (agentId : JsString) (data : Data H) : Bool :=
  decide data.ids.Nodup && data.jobs.all fun e =>
    decide (e.job.id ≠ []) && decide (e.job.agentId = agentId) &&
      decide (e.run.id = e.job.id) && decide (e.fingerprint = F.job e.job)

/-- The entries that were started are stopped. -/
def recover : List (Entry H) → Exec H (List (Entry H))
  | [] => return []
  | e :: jobs => do
    let e' ← if e.state = .started then do
        let run ← stopUncertain P e.run
        pure { e with run := run, state := .finished }
      else pure e
    let jobs' ← recover jobs
    return e' :: jobs'

/-- The data of the file, or new data. -/
def readData (agentId : JsString) : File H → Exec H (Data H)
  | .absent => return ⟨1, agentId, []⟩
  | .corrupt => fail "Runner journal is corrupt or unreadable. Manual reconciliation required."
  | .foreign => fail "Runner journal does not match the pinned agent or journal version."
  | .data data => return data

/-- `RunnerJournal.open(directory, agentId)` behind the lock file; the object it is called on is
given its data. -/
def openJournal (agentId : JsString) : Exec H Unit := do
  perform .writeLock
  let file ← tryCatch (perform .readJournal) fun _ =>
    fail "Runner journal is corrupt or unreadable. Manual reconciliation required."
  let data ← readData agentId file
  if pinned agentId data = false then
    fail "Runner journal does not match the pinned agent or journal version."
  else if integrity F agentId data = false then
    fail "Runner journal integrity check failed. Manual reconciliation required."
  else do
    let jobs ← recover P data.jobs
    save fun _ => { data with jobs := jobs }

/-- `this.existing(job)` -/
def existing (job : RunnerJob) : Exec H Bool := do
  assertHealthy
  let journal ← Method.self
  match journal.data.find job.id with
  | none => return false
  | some e =>
    if e.fingerprint ≠ F.job job then fail "Existing job parameters changed." else return true

/-- The entries under the mandate of a job. -/
def Data.previous (data : Data H) (job : RunnerJob) : List (Entry H) :=
  data.jobs.filter fun e => e.job.mandate.id = job.mandate.id

/-- `this.start(job, run)` -/
def start (job : RunnerJob) (run : Run) : Exec H Unit := do
  let journal ← Method.self
  if job.agentId ≠ journal.data.agentId ∨ run.id ≠ job.id then
    fail "Job does not match the pinned agent or run."
  else do
    let known ← existing F job
    if known then fail "Job already started; it cannot execute again."
    else if (journal.data.previous job).any
        (fun e => F.mandate e.job.mandate ≠ F.mandate job.mandate) then
      fail "Mandate nonce parameters changed."
    else if job.mandate.maxRuns.den ≠ 1 ∨ job.mandate.maxRuns < 1 ∨ 10 < job.mandate.maxRuns ∨
        job.mandate.maxRuns ≤ (journal.data.previous job).length then
      fail "Signed mandate run limit exhausted."
    else save fun data => { data with jobs := data.jobs ++ [⟨job, F.job job, .started, run⟩] }

/-- `this.checkpoint(id, run)` -/
def checkpoint (id : JsString) (run : Run) : Exec H Unit := do
  let journal ← Method.self
  match journal.data.find id with
  | none => fail "Invalid runner checkpoint."
  | some e =>
    if e.state ≠ .started ∨ run.id ≠ id then fail "Invalid runner checkpoint."
    else save fun data => data.update id fun e => { e with run := run }

/-- `this.finish(id, run)` -/
def finish (id : JsString) (run : Run) : Exec H Unit := do
  let journal ← Method.self
  match journal.data.find id with
  | none => fail "Invalid terminal runner result."
  | some e =>
    if e.state ≠ .started ∨ run.id ≠ id ∨ isTerminal run.status = false then
      fail "Invalid terminal runner result."
    else save fun data => data.update id fun e => { e with run := run, state := .finished }

/-- `this.acknowledge(id)` -/
def acknowledge (id : JsString) : Exec H Unit := do
  let journal ← Method.self
  match journal.data.find id with
  | none => fail "Invalid runner acknowledgment."
  | some e =>
    if e.state ≠ .finished then fail "Invalid runner acknowledgment."
    else save fun data => data.update id fun e => { e with state := .acknowledged }

/-- The loop of `executeJob`, at most `n` times. -/
def advanceAll (id : JsString) : ℕ → Run → Exec H Unit
  | 0, _ => pure ()
  | n + 1, run => do
    if isTerminal run.status then finish id run
    else do
      let aborted ← perform .aborted
      if aborted then do
        let last ← stopUncertain P run
        finish id last
      else do
        let next ← perform (.advanceRun run)
        checkpoint id next
        advanceAll id n next

/-- `executeJob(input, options)`, with at most `n` stages. -/
def executeJob (n : ℕ) (job : RunnerJob) : Exec H Unit := do
  let known ← existing F job
  if known then pure ()
  else do
    perform (.validateJob job)
    let run ← perform (.createRun job)
    start F job { run with id := job.id }
    advanceAll P job.id n { run with id := job.id }

/-! ### Processes -/

/-- A call of the process that has opened the journal. -/
inductive Call
  | start (job : RunnerJob) (run : Run)
  | checkpoint (id : JsString) (run : Run)
  | finish (id : JsString) (run : Run)
  | acknowledge (id : JsString)
  | execute (n : ℕ) (job : RunnerJob)
  | close

/-- What a call does, behind the lock file. -/
def Call.method : Call → Exec H Unit
  | .start job run => Runner.start F job run
  | .checkpoint id run => Runner.checkpoint id run
  | .finish id run => Runner.finish id run
  | .acknowledge id => Runner.acknowledge id
  | .execute n job => executeJob P F n job
  | .close => pure ()

/-- A program of a process. -/
abbrev Process (H : Type) (α : Type) := Prog (Locked (Effect H)) (Locked.Answer Answer) JsError α

/-- The unlinking of `this.close()`. -/
def unlinkOnClose (journal : RunnerJournal H) : Process H Unit :=
  if journal.closed ∨ journal.poisoned then pure ()
  else tryCatch (Locked.perform .unlink) fun _ => pure ()

/-- The calls of a process, each after the one before it; what a call throws is caught. -/
def serve : List Call → RunnerJournal H → Process H Unit
  | [], _ => pure ()
  | .close :: calls, journal => do
    unlinkOnClose journal
    serve calls { journal with closed := true }
  | call :: calls, journal => do
    let answer ← Locked.lift (call.method P F journal)
    serve calls answer.2

/-- A process that opens the journal and calls its functions. -/
def session (agentId : JsString) (calls : List Call) : Process H Unit := do
  Locked.perform .mkdir
  tryCatch (Locked.perform .acquire) fun _ => throw (.error (js "Runner lock exists or cannot be created. Stop other writers and reconcile any stale lock manually."))
  let journal ← Locked.lift (openJournal P F agentId ⟨false, false, ⟨1, agentId, []⟩⟩)
  match journal.1 with
  | .ok _ => serve P F calls journal.2
  | .error e => do
    tryCatch (Locked.perform .close) fun _ => pure ()
    tryCatch (Locked.perform .unlink) fun _ => pure ()
    throw e

end Runner

end Obolos
