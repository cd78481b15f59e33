import Obolos.Platform.Database
import Obolos.Economy.Operation

/-!
# The orders of the hosted market

The table `platform_market_orders` of migrations 006 and 009, and the statements that
`marketplace.ts` sends to it: an order is quoted for a job, a transaction pays for it, a delivery is
claimed for 90 seconds under a new token, and the attempt that holds the token records the result
or gives up.

The other tables that these statements read (`Catalog`) are written by other handlers; here they
are whatever they are at the moment of a statement.  The column `transaction_hash`, which is
constrained to hexadecimal texts, is its value.
-/

namespace Obolos

namespace HostedMarket

/-! ### The tables that are only read -/

/-- `VerificationService`; an external one has the endpoint of its provider. -/
structure VerificationService where
  id : JsString
  revision : ℕ
  name : JsString
  recipient : JsString
  priceAtomic : ℕ
  endpoint : JsString
  providerEndpoint : Option JsString
  deriving DecidableEq

/-- A row of `platform_market_services`. -/
structure ServiceRow where
  id : JsString
  revision : ℕ
  name : JsString
  recipient : JsString
  priceAtomic : ℕ
  active : Bool
  providerEndpoint : Option JsString

/-- What is read of a signed mandate. -/
structure SignedMandate where
  allowedProviders : List JsString
  dataBudgetAtomic : ℚ
  verificationBudgetAtomic : ℚ
  maxDataUnitPriceAtomic : ℚ
  expiresAt : JsString
  verificationService : Option VerificationService

/-- A job with its mandate, its agent and the owner of the agent. -/
structure JobRow where
  agentId : JsString
  runnerId : Option JsString
  running : Bool
  repos : List JsString
  ownerId : JsString
  address : JsString
  mandate : SignedMandate
  approved : Bool
  revoked : Bool
  expiresAt : ℕ

/-- A settled row of `platform_service_payments`; its evidence is a list of records. -/
structure ServicePayment where
  transactionId : JsString
  providerId : JsString
  repos : List JsString
  evidence : Option (List Json)
  amountAtomic : ℚ

/-- The other tables: the jobs, the runners that are not revoked, the services, and the settled
payments that are found under a transaction. -/
structure Catalog where
  jobs : JsString → Option JobRow
  active : JsString → Bool
  services : JsString → Option ServiceRow
  payments : JsString → List ServicePayment

/-- `Runner` -/
structure Runner where
  id : JsString
  agentId : JsString

/-- `OrderScope` -/
inductive OrderScope
  | runner (runner : Runner)
  | user (userId : JsString)

/-! ### Rows -/

/-- The column `status`. -/
inductive OrderStatus
  | quoted | paid | fulfilled
  deriving DecidableEq, Repr

/-- What is given for a new order. -/
structure NewOrder where
  id : JsString
  jobId : JsString
  runnerId : JsString
  payer : JsString
  reportDigest : JsString
  report : Json
  serviceSnapshot : VerificationService
  expiresAt : ℤ
  dataTransactionId : JsString
  dataSourceId : JsString

/-- What is written once, when the order is inserted. -/
structure OrderIdentity extends NewOrder where
  serviceId : JsString
  revision : ℕ
  recipient : JsString
  amountAtomic : ℕ
  createdAt : ℕ

/-- A row of `platform_market_orders`; times are in milliseconds. -/
structure OrderRow extends OrderIdentity where
  status : OrderStatus := .quoted
  transactionHash : Option Bytes32 := none
  proof : Option Json := none
  result : Option Json := none
  deliveryToken : Option JsString := none
  deliveryLeaseUntil : Option ℕ := none
  deliveryAttempts : ℕ := 0
  deliveryError : Option JsString := none

namespace OrderRow

/-- The constraint `market_order_state`. -/
def State (row : OrderRow) : Prop :=
  (row.status = .quoted ∧ row.transactionHash = none ∧ row.proof.isNone = true ∧
    row.result.isNone = true) ∨
  (row.status = .paid ∧ row.transactionHash ≠ none ∧ row.proof.isSome = true ∧
    row.result.isNone = true) ∨
  (row.status = .fulfilled ∧ row.transactionHash ≠ none ∧ row.proof.isSome = true ∧
    row.result.isSome = true)

/-- The constraint `market_order_delivery_lease`. -/
def Lease (row : OrderRow) : Prop := row.deliveryToken = none ↔ row.deliveryLeaseUntil = none

instance (row : OrderRow) : Decidable row.State := inferInstanceAs (Decidable (_ ∨ _))

instance (row : OrderRow) : Decidable row.Lease := inferInstanceAs (Decidable (_ ↔ _))

/-- The constraints are checked for every version of a row. -/
def checked (row : OrderRow) : Except ApiError OrderRow :=
  if row.State ∧ row.Lease then .ok row else .error .checkViolation

theorem checked_ok {row row' : OrderRow} :
    row.checked = .ok row' ↔ (row.State ∧ row.Lease) ∧ row' = row := by
  unfold checked
  split_ifs with h
  · simp only [Except.ok.injEq, h, true_and, eq_comm]
  · simp [h]

variable (row : OrderRow) (now : ℕ)

/-- A transaction pays for the order. -/
def pay (hash : Bytes32) (proof : Json) : OrderRow :=
  { row with status := .paid, transactionHash := some hash, proof := some proof }

/-- A delivery attempt that starts now. -/
def claim (token : JsString) : OrderRow :=
  { row with
    deliveryToken := some token, deliveryLeaseUntil := some (now + 90 * 1000),
    deliveryAttempts := row.deliveryAttempts + 1, deliveryError := none }

/-- The attempt has delivered. -/
def fulfil (result : Json) : OrderRow :=
  { row with
    status := .fulfilled, result := some result, deliveryToken := none,
    deliveryLeaseUntil := none, deliveryError := none }

/-- The attempt has failed. -/
def giveUp (message : JsString) : OrderRow :=
  { row with
    deliveryError := some message, deliveryToken := none, deliveryLeaseUntil := none }

end OrderRow

/-- The row of an order that is inserted. -/
def NewOrder.stored (order : NewOrder) (now : ℕ) (service : ServiceRow) (report : Json) :
    OrderRow :=
  { order with
    report, serviceId := service.id, revision := service.revision,
    recipient := service.recipient, amountAtomic := service.priceAtomic, createdAt := now }

/-- `CHECK(amount_atomic BETWEEN 1000 AND 1000000)` and `CHECK(expires_at>created_at)` -/
def OrderRow.Insertable (row : OrderRow) : Prop :=
  (1000 ≤ row.amountAtomic ∧ row.amountAtomic ≤ 1000000) ∧ (row.createdAt : ℤ) < row.expiresAt

instance (row : OrderRow) : Decidable row.Insertable := inferInstanceAs (Decidable (_ ∧ _))

/-- A request for a remote verification. -/
structure RemoteRequest where
  endpoint : JsString
  report : Json
  idempotencyKey : JsString
  orderId : JsString
  serviceId : JsString
  revision : ℕ
  recipient : JsString
  amountAtomic : ℕ
  transactionHash : JsString
  reportDigest : JsString
  receiptUrl : JsString

/-- The orders, the clock of the database and the other tables; and for every token that was drawn
who drew it, and what remote verifications were answered.  The last two are no part of the system;
they are what the history says. -/
structure Db (ι : Type) where
  orders : Table OrderRow JsString fun row => row.id
  now : ℕ
  catalog : Catalog
  drawn : JsString → Option ι
  answers : List (RemoteRequest × Json)

variable {ι : Type}

/-! ### Statements -/

/-- A statement on the orders. -/
def Db.run {α : Type} (f : Statement (Table OrderRow JsString fun row => row.id) ApiError α) :
    Statement (Db ι) ApiError α :=
  fun d => (f d.orders).map fun x => (x.1, { d with orders := x.2 })

/-- The order is visible in the scope. -/
def Catalog.visible (catalog : Catalog) (row : OrderRow) : OrderScope → Bool
  | .runner runner => decide (row.runnerId = runner.id) &&
    (catalog.jobs row.jobId).any (fun job => decide (job.agentId = runner.agentId)) &&
    catalog.active runner.id
  | .user userId => (catalog.jobs row.jobId).any fun job => decide (job.ownerId = userId)

/-- The order may be delivered in the scope. -/
def Catalog.delivers (catalog : Catalog) (row : OrderRow) : OrderScope → Bool
  | .runner runner => catalog.active runner.id
  | .user userId => (catalog.jobs row.jobId).any fun job => decide (job.ownerId = userId)

/-- The `SELECT` of `getMarketOrder`. -/
def selectOrder (id : JsString) (scope : OrderScope) :
    Statement (Db ι) ApiError (Option OrderRow) :=
  Statement.read fun d => (d.orders.get id).filter fun row => d.catalog.visible row scope

/-- `SELECT * FROM platform_market_orders WHERE job_id=… AND runner_id=…` -/
def selectJobOrder (jobId runnerId : JsString) : Statement (Db ι) ApiError (Option OrderRow) :=
  Statement.read fun d => d.orders.rows.find? fun row =>
    decide (row.jobId = jobId ∧ row.runnerId = runnerId)

/-- The job of a runner that may be billed. -/
def selectJob (jobId : JsString) (runner : Runner) : Statement (Db ι) ApiError (Option JobRow) :=
  Statement.read fun d => (d.catalog.jobs jobId).filter fun job =>
    decide (job.agentId = runner.agentId ∧ job.runnerId = some runner.id) && job.running &&
      job.approved && !job.revoked && decide (d.now < job.expiresAt) && d.catalog.active runner.id

/-- `SELECT * FROM platform_market_services WHERE id=… AND active=true` -/
def selectService (id : JsString) : Statement (Db ι) ApiError (Option ServiceRow) :=
  Statement.read fun d => (d.catalog.services id).filter fun service => service.active

/-- The settled payments of a transaction. -/
def selectPayments (transactionId : JsString) : Statement (Db ι) ApiError (List ServicePayment) :=
  Statement.read fun d => d.catalog.payments transactionId

/-- The service of a new order, if the `INSERT` selects one. -/
def Catalog.orderable (catalog : Catalog) (order : NewOrder) (now : ℕ) : Option ServiceRow :=
  (catalog.jobs order.jobId).bind fun job =>
    if job.runnerId = some order.runnerId ∧ job.running = true ∧ job.revoked = false ∧
        now < job.expiresAt ∧ catalog.active order.runnerId = true then
      (catalog.services order.serviceSnapshot.id).filter fun service =>
        service.active && decide (service.revision = order.serviceSnapshot.revision)
    else none

/-- `INSERT INTO platform_market_orders(…) SELECT … ON CONFLICT(job_id) DO NOTHING RETURNING *` -/
def insertOrder (J : Jsonb) (order : NewOrder) : Statement (Db ι) ApiError (Option OrderRow) :=
  fun d =>
    match J.store order.report, d.catalog.orderable order d.now with
    | none, _ => .error .untranslatable
    | some _, none => .ok (none, d)
    | some report, some service =>
      let row := order.stored d.now service report
      if ¬ row.Insertable then .error .checkViolation
      else if d.orders.rows.any fun r => decide (r.jobId = row.jobId) then .ok (none, d)
      else if d.orders.rows.any fun r => decide (r.id = row.id ∨
          r.dataTransactionId = row.dataTransactionId ∨ r.dataSourceId = row.dataSourceId) then
        .error .uniqueViolation
      else .ok (some row, { d with orders := d.orders.insert row })

/-- `UPDATE platform_market_orders SET transaction_hash=…,proof=…,status='paid' WHERE id=… AND
status='quoted' AND EXISTS(…) RETURNING *` -/
def markPaid (J : Jsonb) (id runnerId : JsString) (hash : Bytes32) (proof : Json) :
    Statement (Db ι) ApiError (Option OrderRow) := fun d =>
  match J.store proof with
  | none => .error .untranslatable
  | some proof =>
    Db.run (fun t => Table.update id
      (fun row => decide (row.status = .quoted) && d.catalog.active runnerId)
      (fun row =>
        if t.rows.any fun r => decide (r.id ≠ row.id ∧ r.transactionHash = some hash) then
          .error .uniqueViolation
        else (row.pay hash proof).checked) t) d

/-- The lease has run out, or there is none. -/
def free (now : ℕ) : Option ℕ → Bool
  | some lease => lease < now
  | none => true

/-- `UPDATE platform_market_orders SET delivery_token=…,… WHERE id=… AND status='paid' AND
(delivery_lease_until IS NULL OR delivery_lease_until<now()) AND … RETURNING *` -/
def claimDelivery (id : JsString) (scope : OrderScope) (token : JsString) :
    Statement (Db ι) ApiError (Option OrderRow) := fun d =>
  Db.run (Table.update id
    (fun row => decide (row.status = .paid) && free d.now row.deliveryLeaseUntil &&
      d.catalog.delivers row scope)
    fun row => do
      let _ ← increment row.deliveryAttempts
      (row.claim d.now token).checked) d

/-- `UPDATE platform_market_orders SET result=…,status='fulfilled',… WHERE id=… AND status='paid'
AND delivery_token=… RETURNING *` -/
def completeDelivery (J : Jsonb) (id token : JsString) (result : Json) :
    Statement (Db ι) ApiError (Option OrderRow) := fun d =>
  match J.store result with
  | none => .error .untranslatable
  | some result =>
    Db.run (Table.update id
      (fun row => decide (row.status = .paid ∧ row.deliveryToken = some token))
      fun row => (row.fulfil result).checked) d

/-- `UPDATE platform_market_orders SET delivery_error=…,… WHERE id=… AND status='paid' AND
delivery_token=…` -/
def failDelivery (id token message : JsString) : Statement (Db ι) ApiError Unit := fun d =>
  (Db.run (Table.update id
    (fun row => decide (row.status = .paid ∧ row.deliveryToken = some token))
    fun row => (row.giveUp message).checked) d).map fun x => ((), x.2)

/-! ### What the statements do -/

variable {d d' : Db ι} {id runnerId token message : JsString} {scope : OrderScope} {hash : Bytes32}
  {o : Option OrderRow} {J : Jsonb} {order : NewOrder} {proof result : Json}

theorem Db.run_ok {α : Type} {a : α}
    {f : Statement (Table OrderRow JsString fun row => row.id) ApiError α} :
    Db.run f d = .ok (a, d') ↔ ∃ t, f d.orders = .ok (a, t) ∧ d' = { d with orders := t } := by
  unfold Db.run
  cases f d.orders with
  | error e => simp [Except.map]
  | ok x =>
    obtain ⟨b, t⟩ := x
    simp only [Except.map, Except.ok.injEq, Prod.mk.injEq]
    constructor
    · rintro ⟨rfl, rfl⟩; exact ⟨t, ⟨rfl, rfl⟩, rfl⟩
    · rintro ⟨_, ⟨rfl, rfl⟩, rfl⟩; exact ⟨rfl, rfl⟩

theorem Db.run_error {α : Type} {e : ApiError}
    {f : Statement (Table OrderRow JsString fun row => row.id) ApiError α} :
    Db.run f d = .error e ↔ f d.orders = .error e := by
  unfold Db.run
  cases f d.orders <;> simp [Except.map]

/-- An order that is inserted is the only one of its job and of its evidence. -/
theorem insertOrder_ok (h : insertOrder J order d = .ok (o, d')) :
    (o = none ∧ d' = d) ∨
      ∃ report service, J.store order.report = some report ∧
        (∀ k r, d.orders.get k = some r → r.id ≠ order.id ∧ r.jobId ≠ order.jobId ∧
          r.dataTransactionId ≠ order.dataTransactionId ∧ r.dataSourceId ≠ order.dataSourceId) ∧
        o = some (order.stored d.now service report) ∧
        d' = { d with orders := d.orders.insert (order.stored d.now service report) } := by
  unfold insertOrder at h
  split at h
  · cases h
  · cases h
    exact Or.inl ⟨rfl, rfl⟩
  · rename_i report service hreport _
    dsimp only at h
    split_ifs at h with hinsertable hjob hother
    · cases h
      exact Or.inl ⟨rfl, rfl⟩
    · cases h
      refine Or.inr ⟨report, service, hreport, fun k r hr => ?_, rfl, rfl⟩
      have hmem : r ∈ d.orders.rows := (Table.get_eq_some.1 hr).1
      simp only [List.any_eq_true, decide_eq_true_eq, not_exists, not_and] at hjob hother
      have hnew := hother r hmem
      simp only [not_or] at hnew
      exact ⟨hnew.1, hjob r hmem, hnew.2.1, hnew.2.2⟩

/-- An order that is paid was quoted, and no other one is paid with the transaction. -/
theorem markPaid_ok (h : markPaid J id runnerId hash proof d = .ok (o, d')) :
    (o = none ∧ d' = d) ∨
      ∃ row stored, d.orders.get id = some row ∧ row.status = .quoted ∧
        J.store proof = some stored ∧
        (∀ k r, k ≠ id → d.orders.get k = some r → r.transactionHash ≠ some hash) ∧
        (row.pay hash stored).State ∧ (row.pay hash stored).Lease ∧
        o = some (row.pay hash stored) ∧
        d' = { d with orders := d.orders.replace (row.pay hash stored) } := by
  unfold markPaid at h
  split at h
  · cases h
  · rename_i stored hstored
    obtain ⟨t, ht, rfl⟩ := Db.run_ok.1 h
    rcases Table.update_ok.1 ht with ⟨rfl, rfl, -⟩ | ⟨row, row', hrow, hcond, hset, rfl, rfl⟩
    · exact Or.inl ⟨rfl, rfl⟩
    · rw [Bool.and_eq_true, decide_eq_true_eq] at hcond
      split_ifs at hset with hany
      obtain ⟨⟨hstate, hlease⟩, rfl⟩ := OrderRow.checked_ok.1 hset
      refine Or.inr ⟨row, stored, hrow, hcond.1, hstored, fun k r hk hr hhash => hany ?_, hstate,
        hlease, rfl, rfl⟩
      obtain ⟨hmem, hkey⟩ := Table.get_eq_some.1 hr
      have hid : row.id = id := (Table.get_eq_some.1 hrow).2
      rw [List.any_eq_true]
      exact ⟨r, hmem, decide_eq_true ⟨by rw [hkey, hid]; exact hk, hhash⟩⟩

/-- A delivery that is claimed was not leased. -/
theorem claimDelivery_ok (h : claimDelivery id scope token d = .ok (o, d')) :
    (o = none ∧ d' = d) ∨
      ∃ row, d.orders.get id = some row ∧ row.status = .paid ∧
        free d.now row.deliveryLeaseUntil = true ∧
        (row.claim d.now token).State ∧ (row.claim d.now token).Lease ∧
        o = some (row.claim d.now token) ∧
        d' = { d with orders := d.orders.replace (row.claim d.now token) } := by
  obtain ⟨t, ht, rfl⟩ := Db.run_ok.1 h
  rcases Table.update_ok.1 ht with ⟨rfl, rfl, -⟩ | ⟨row, row', hrow, hcond, hset, rfl, rfl⟩
  · exact Or.inl ⟨rfl, rfl⟩
  · simp only [bind_eq_ok, OrderRow.checked_ok, increment_ok] at hset
    obtain ⟨_, -, ⟨hstate, hlease⟩, rfl⟩ := hset
    simp only [Bool.and_eq_true, decide_eq_true_eq] at hcond
    exact Or.inr ⟨row, hrow, hcond.1.1, hcond.1.2, hstate, hlease, rfl, rfl⟩

/-- A result is recorded by who holds the token. -/
theorem completeDelivery_ok (h : completeDelivery J id token result d = .ok (o, d')) :
    (o = none ∧ d' = d) ∨
      ∃ row stored, d.orders.get id = some row ∧ row.status = .paid ∧
        row.deliveryToken = some token ∧ J.store result = some stored ∧
        (row.fulfil stored).State ∧ (row.fulfil stored).Lease ∧
        o = some (row.fulfil stored) ∧
        d' = { d with orders := d.orders.replace (row.fulfil stored) } := by
  unfold completeDelivery at h
  split at h
  · cases h
  · rename_i stored hstored
    obtain ⟨t, ht, rfl⟩ := Db.run_ok.1 h
    rcases Table.update_ok.1 ht with ⟨rfl, rfl, -⟩ | ⟨row, row', hrow, hcond, hset, rfl, rfl⟩
    · exact Or.inl ⟨rfl, rfl⟩
    · obtain ⟨⟨hstate, hlease⟩, rfl⟩ := OrderRow.checked_ok.1 hset
      obtain ⟨hpaid, htoken⟩ := of_decide_eq_true hcond
      exact Or.inr ⟨row, stored, hrow, hpaid, htoken, hstored, hstate, hlease, rfl, rfl⟩

/-- An attempt gives up what it holds. -/
theorem failDelivery_ok {u : Unit} (h : failDelivery id token message d = .ok (u, d')) :
    d' = d ∨
      ∃ row, d.orders.get id = some row ∧ row.status = .paid ∧
        (row.giveUp message).State ∧ (row.giveUp message).Lease ∧
        d' = { d with orders := d.orders.replace (row.giveUp message) } := by
  unfold failDelivery at h
  obtain ⟨⟨o, d''⟩, hrun, hd⟩ := map_eq_ok.1 h
  obtain rfl : d'' = d' := (Prod.mk.inj hd).2
  obtain ⟨t, ht, rfl⟩ := Db.run_ok.1 hrun
  rcases Table.update_ok.1 ht with ⟨-, rfl, -⟩ | ⟨row, row', hrow, hcond, hset, rfl, rfl⟩
  · exact Or.inl rfl
  · obtain ⟨⟨hstate, hlease⟩, rfl⟩ := OrderRow.checked_ok.1 hset
    exact Or.inr ⟨row, hrow, (of_decide_eq_true hcond).1, hstate, hlease, rfl⟩

end HostedMarket

end Obolos
