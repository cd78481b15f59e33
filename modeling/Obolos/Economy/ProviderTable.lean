import Obolos.Economy.Marketplace
import Mathlib.Data.List.MinMax

/-!
# The jobs of the provider

The table `economy_provider_jobs` of migration 014, and the statements that `provider-queue.ts`
sends to it.  A paid order is queued once; a claim takes the oldest queued job under a token of
the worker; the worker completes the job, reports it as failed, or runs it again.

A claim skips the rows that other statements have locked (`locked`).  The columns that hold
hexadecimal texts are their values.
-/

namespace Obolos

namespace Provider

open Market (Log ReceiptStatus)

/-- The column `state`. -/
inductive JobState
  | queued | running | completed | failed
  deriving DecidableEq, Repr

/-- What is given for a new job. -/
structure NewJob where
  orderId : Bytes32
  requestHash : Bytes32
  request : Json
  definition : Json
  paidAt : ℕ

/-- What is written once, when the job is inserted. -/
structure JobIdentity extends NewJob where
  createdAt : ℕ

/-- A row of `economy_provider_jobs`; `leaseStartedAt` is in seconds. -/
structure JobRow extends JobIdentity where
  state : JobState := .queued
  claimToken : Option JsString := none
  leaseStartedAt : Option ℕ := none
  output : Option Json := none
  outputHash : Option Bytes32 := none
  attestationHash : Option Bytes32 := none
  updatedAt : ℕ

/-- What a claim returns of a job. -/
structure ClaimedJob where
  orderId : Bytes32
  request : Json
  definition : Json
  paidAt : ℕ
  leaseStartedAt : Option ℕ
  claimToken : Option JsString

namespace JobRow

variable (row : JobRow) (now : ℕ)

/-- `CHECK((output IS NULL)=(output_hash IS NULL))` -/
def Consistent : Prop := row.output = none ↔ row.outputHash = none

instance : Decidable row.Consistent :=
  decidable_of_iff (row.output.isNone = row.outputHash.isNone) (by
    rw [Consistent, Bool.eq_iff_iff, Option.isNone_iff_eq_none, Option.isNone_iff_eq_none])

/-- The constraint is checked for every version of a row. -/
def checked : Except ApiError JobRow :=
  if row.Consistent then .ok row else .error .checkViolation

theorem checked_ok {row row' : JobRow} : row.checked = .ok row' ↔ row.Consistent ∧ row' = row := by
  unfold checked
  split_ifs with h
  · simp only [Except.ok.injEq, h, true_and, eq_comm]
  · simp [h]

/-- `RETURNING order_id,request,definition,paid_at,lease_started_at,claim_token` -/
def claimed : ClaimedJob where
  orderId := row.orderId
  request := row.request
  definition := row.definition
  paidAt := row.paidAt
  leaseStartedAt := row.leaseStartedAt
  claimToken := row.claimToken

/-- A worker takes the job. -/
def claim (token : JsString) : JobRow :=
  { row with
    state := .running, claimToken := some token, leaseStartedAt := some (now / 1000),
    updatedAt := now }

/-- The job is run again. -/
def retry : JobRow := { row with state := .running, updatedAt := now }

/-- The job has failed. -/
def fail : JobRow := { row with state := .failed, updatedAt := now }

/-- The job is done. -/
def complete (output : Json) (outputHash attestationHash : Bytes32) : JobRow :=
  { row with
    state := .completed, output := some output, outputHash := some outputHash,
    attestationHash := some attestationHash, updatedAt := now }

/-- `definition->>'category' IN ('data','compute','verification')` -/
def readOnly : Bool :=
  match (row.definition.prop "category").bind Json.asStr with
  | some category => [js "data", js "compute", js "verification"].contains category
  | none => false

/-- The condition of a retry: nothing has come out of the job yet. -/
def retriable : Bool :=
  (row.state = .failed || row.state = .running) && row.output.isNone && row.outputHash.isNone &&
    row.attestationHash.isNone && row.readOnly

end JobRow

/-- The row of a job that is inserted. -/
def NewJob.stored (job : NewJob) (now : ℕ) (request definition : Json) : JobRow :=
  { job with request, definition, createdAt := now, updatedAt := now }

/-- The jobs by their orders. -/
abbrev Jobs := Table JobRow Bytes32 fun row => row.orderId

/-- The table, the clock of the database, and the number of the last final block. -/
structure JobDb where
  jobs : Jobs
  now : ℕ
  final : ℕ

/-- A statement on the table. -/
def JobDb.run {α : Type} (f : Statement Jobs ApiError α) : Statement JobDb ApiError α :=
  fun d => (f d.jobs).map fun x => (x.1, { d with jobs := x.2 })

/-! ### The statements -/

/-- `SELECT * FROM economy_provider_jobs WHERE order_id=…` -/
def selectJob (orderId : Bytes32) : Statement JobDb ApiError (Option JobRow) :=
  Statement.read fun d => d.jobs.get orderId

/-- `SELECT * FROM economy_provider_jobs WHERE order_id=… AND claim_token=…` -/
def selectJobOf (orderId : Bytes32) (token : JsString) :
    Statement JobDb ApiError (Option JobRow) :=
  Statement.read fun d => (d.jobs.get orderId).filter fun row => row.claimToken = some token

/-- `SELECT … FROM economy_provider_jobs WHERE claim_token=…` -/
def selectClaimed (token : JsString) : Statement JobDb ApiError (Option JobRow) :=
  Statement.read fun d => d.jobs.rows.find? fun row => row.claimToken = some token

/-- `INSERT INTO economy_provider_jobs(…) VALUES(…) ON CONFLICT(order_id) DO NOTHING`; `paid_at` is
a `bigint`. -/
def insertJob (J : Jsonb) (job : NewJob) : Statement JobDb ApiError Unit := fun d =>
  match J.store job.request, J.store job.definition with
  | some request, some definition =>
    if job.paidAt < 2 ^ 63 then
      (JobDb.run (Table.insertNew (job.stored d.now request definition) fun _ => none) d).map
        fun x => ((), x.2)
    else .error .outOfRange
  | _, _ => .error .untranslatable

/-- `SELECT order_id FROM economy_provider_jobs WHERE state='queued' ORDER BY created_at FOR UPDATE
SKIP LOCKED LIMIT 1` -/
def oldestQueued (locked : Bytes32 → Bool) (jobs : Jobs) : Option JobRow :=
  (jobs.rows.filter fun row => row.state = .queued && !locked row.orderId).argmin
    fun row => row.createdAt

/-- `UPDATE economy_provider_jobs SET state='running',claim_token=…,… WHERE order_id=(…) AND
state='queued' RETURNING …` -/
def claimJob (locked : Bytes32 → Bool) (token : JsString) :
    Statement JobDb ApiError (Option JobRow) := fun d =>
  match oldestQueued locked d.jobs with
  | none => .ok (none, d)
  | some job =>
    JobDb.run (Table.update job.orderId (fun row => row.state = .queued) fun row =>
      if d.jobs.rows.any fun row => row.claimToken = some token then .error .uniqueViolation
      else (row.claim d.now token).checked) d

/-- `UPDATE economy_provider_jobs SET state='running',… WHERE order_id=… AND claim_token=… AND
state IN ('failed','running') AND output IS NULL AND … RETURNING state` -/
def retryJob (orderId : Bytes32) (token : JsString) : Statement JobDb ApiError (Option JobRow) :=
  fun d => JobDb.run (Table.update orderId
    (fun row => row.claimToken = some token && row.retriable)
    fun row => (row.retry d.now).checked) d

/-- `UPDATE economy_provider_jobs SET state='failed',… WHERE order_id=… AND claim_token=… AND
state='running'` -/
def failJob (orderId : Bytes32) (token : JsString) : Statement JobDb ApiError Unit := fun d =>
  (JobDb.run (Table.update orderId
    (fun row => row.claimToken = some token && row.state = .running)
    fun row => (row.fail d.now).checked) d).map fun x => ((), x.2)

/-- `UPDATE economy_provider_jobs SET state='completed',output=…,… WHERE order_id=… AND
claim_token=… AND state='running' RETURNING order_id` -/
def completeJob (J : Jsonb) (orderId : Bytes32) (token : JsString) (output : Json)
    (outputHash attestationHash : Bytes32) : Statement JobDb ApiError (Option JobRow) := fun d =>
  match J.store output with
  | none => .error .untranslatable
  | some output =>
    JobDb.run (Table.update orderId
      (fun row => row.claimToken = some token && row.state = .running)
      fun row => (row.complete d.now output outputHash attestationHash).checked) d

/-! ### What the statements do -/

variable {d d' : JobDb} {orderId : Bytes32} {token : JsString} {o : Option JobRow} {J : Jsonb}
  {job : NewJob} {output : Json} {outputHash attestationHash : Bytes32}

theorem JobDb.run_ok {α : Type} {a : α} {f : Statement Jobs ApiError α} :
    JobDb.run f d = .ok (a, d') ↔ ∃ t, f d.jobs = .ok (a, t) ∧ d' = { d with jobs := t } := by
  unfold JobDb.run
  cases f d.jobs with
  | error e => simp [Except.map]
  | ok x =>
    obtain ⟨b, t⟩ := x
    simp only [Except.map, Except.ok.injEq, Prod.mk.injEq]
    constructor
    · rintro ⟨rfl, rfl⟩; exact ⟨t, ⟨rfl, rfl⟩, rfl⟩
    · rintro ⟨_, ⟨rfl, rfl⟩, rfl⟩; exact ⟨rfl, rfl⟩

/-- An update changes nothing, or the row of the order. -/
theorem JobDb.update_ok {cond : JobRow → Bool} {set : JobRow → Except ApiError JobRow}
    (h : JobDb.run (Table.update orderId cond set) d = .ok (o, d')) :
    (o = none ∧ d' = d) ∨ ∃ row row', d.jobs.get orderId = some row ∧ cond row = true ∧
      set row = .ok row' ∧ o = some row' ∧ d' = { d with jobs := d.jobs.replace row' } := by
  obtain ⟨t, ht, rfl⟩ := JobDb.run_ok.1 h
  rcases Table.update_ok.1 ht with ⟨rfl, rfl, -⟩ | ⟨row, row', hrow, hcond, hset, rfl, rfl⟩
  · exact Or.inl ⟨rfl, rfl⟩
  · exact Or.inr ⟨row, row', hrow, hcond, hset, rfl, rfl⟩

/-- A job that is claimed was queued, and the token is new. -/
theorem claimJob_ok {locked : Bytes32 → Bool} (h : claimJob locked token d = .ok (o, d')) :
    (o = none ∧ d' = d) ∨ ∃ row, d.jobs.get row.orderId = some row ∧ row.state = .queued ∧
      (∀ id row', d.jobs.get id = some row' → row'.claimToken ≠ some token) ∧
      o = some (row.claim d.now token) ∧
      d' = { d with jobs := d.jobs.replace (row.claim d.now token) } := by
  unfold claimJob at h
  split at h
  · cases h
    exact Or.inl ⟨rfl, rfl⟩
  · rename_i job hjob
    rcases JobDb.update_ok h with ⟨rfl, rfl⟩ | ⟨row, row', hrow, hcond, hset, rfl, rfl⟩
    · exact Or.inl ⟨rfl, rfl⟩
    · split_ifs at hset with hany
      obtain ⟨-, rfl⟩ := JobRow.checked_ok.1 hset
      have hkey : row.orderId = job.orderId := (Table.get_eq_some.1 hrow).2
      refine Or.inr ⟨row, hkey ▸ hrow, of_decide_eq_true hcond, fun id row' hrow' he => hany ?_,
        rfl, rfl⟩
      exact Table.any_iff.2 ⟨id, row', hrow', decide_eq_true he⟩

theorem retryJob_ok (h : retryJob orderId token d = .ok (o, d')) :
    (o = none ∧ d' = d) ∨ ∃ row, d.jobs.get orderId = some row ∧ row.claimToken = some token ∧
      row.retriable = true ∧ o = some (row.retry d.now) ∧
      d' = { d with jobs := d.jobs.replace (row.retry d.now) } := by
  rcases JobDb.update_ok h with ⟨rfl, rfl⟩ | ⟨row, row', hrow, hcond, hset, rfl, rfl⟩
  · exact Or.inl ⟨rfl, rfl⟩
  · obtain ⟨-, rfl⟩ := JobRow.checked_ok.1 hset
    simp only [Bool.and_eq_true, decide_eq_true_eq] at hcond
    exact Or.inr ⟨row, hrow, hcond.1, hcond.2, rfl, rfl⟩

theorem failJob_ok {u : Unit} (h : failJob orderId token d = .ok (u, d')) :
    d' = d ∨ ∃ row, d.jobs.get orderId = some row ∧ row.claimToken = some token ∧
      row.state = .running ∧ d' = { d with jobs := d.jobs.replace (row.fail d.now) } := by
  obtain ⟨⟨o, d''⟩, hrun, hd⟩ := map_eq_ok.1 h
  obtain rfl : d'' = d' := (Prod.mk.inj hd).2
  rcases JobDb.update_ok hrun with ⟨-, rfl⟩ | ⟨row, row', hrow, hcond, hset, -, rfl⟩
  · exact Or.inl rfl
  · obtain ⟨-, rfl⟩ := JobRow.checked_ok.1 hset
    simp only [Bool.and_eq_true, decide_eq_true_eq] at hcond
    exact Or.inr ⟨row, hrow, hcond.1, hcond.2, rfl⟩

theorem completeJob_ok
    (h : completeJob J orderId token output outputHash attestationHash d = .ok (o, d')) :
    (o = none ∧ d' = d) ∨ ∃ row stored, d.jobs.get orderId = some row ∧
      row.claimToken = some token ∧ row.state = .running ∧ J.store output = some stored ∧
      d' = { d with
        jobs := d.jobs.replace (row.complete d.now stored outputHash attestationHash) } := by
  unfold completeJob at h
  split at h
  · cases h
  · rename_i stored hstored
    rcases JobDb.update_ok h with ⟨rfl, rfl⟩ | ⟨row, row', hrow, hcond, hset, rfl, rfl⟩
    · exact Or.inl ⟨rfl, rfl⟩
    · obtain ⟨-, rfl⟩ := JobRow.checked_ok.1 hset
      simp only [Bool.and_eq_true, decide_eq_true_eq] at hcond
      exact Or.inr ⟨row, stored, hrow, hcond.1, hcond.2, hstored, rfl⟩

/-- A job that is inserted is of a new order. -/
theorem insertJob_ok {u : Unit} (h : insertJob J job d = .ok (u, d')) :
    d' = d ∨ ∃ request definition, J.store job.request = some request ∧
      J.store job.definition = some definition ∧ d.jobs.get job.orderId = none ∧
      d' = { d with jobs := d.jobs.insert (job.stored d.now request definition) } := by
  unfold insertJob at h
  split at h
  · rename_i request definition hrequest hdefinition
    split_ifs at h
    obtain ⟨⟨o, d''⟩, hrun, hd⟩ := map_eq_ok.1 h
    obtain rfl : d'' = d' := (Prod.mk.inj hd).2
    obtain ⟨t, ht, rfl⟩ := JobDb.run_ok.1 hrun
    rcases Table.insertNew_ok.1 ht with ⟨-, rfl, -⟩ | ⟨-, rfl, hfree, -⟩
    · exact Or.inl rfl
    · exact Or.inr ⟨request, definition, hrequest, hdefinition, hfree, rfl⟩
  · cases h

/-- The row with a token. -/
theorem find_claimed {row : JobRow}
    (h : d.jobs.rows.find? (fun row => row.claimToken = some token) = some row) :
    d.jobs.get row.orderId = some row ∧ row.claimToken = some token :=
  ⟨Table.get_eq_some.2 ⟨List.mem_of_find?_eq_some h, rfl⟩, by simpa using List.find?_some h⟩

end Provider

end Obolos
