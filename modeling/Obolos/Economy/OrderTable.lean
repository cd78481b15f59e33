import Obolos.Economy.Settlement
import Obolos.Economy.Operation
import Obolos.Platform.Database

/-!
# The orders of the platform

The table `economy_orders` of migration 011, and the statements that `marketplace.ts` sends to it:
a paid order is inserted, a delivery is claimed for 90 seconds under a new token, and the attempt
that holds the token completes the delivery or releases the order.

The columns that are constrained to hexadecimal texts are their values.  `OrderRow.Consistent` are
the other constraints of the table.  No statement sets a column of the identity of an order, so
the trigger `economy_order_identity_guard` never objects.
-/

namespace Obolos

namespace Marketplace

open Market (ServiceReceipt)

/-- The column `state`. -/
inductive OrderState
  | paid | delivering | fulfilled
  deriving DecidableEq, Repr

/-- The name of a state. -/
def OrderState.text : OrderState → JsString
  | paid => js "paid"
  | delivering => js "delivering"
  | fulfilled => js "fulfilled"

/-- What is given for a new order. -/
structure NewOrder where
  orderId : Bytes32
  userId : JsString
  platformAgentId : JsString
  serviceHash : Bytes32
  requestHash : Bytes32
  request : Json
  definition : Json
  transactionHash : Bytes32
  receipt : ServiceReceipt

/-- What is written once, when the order is inserted. -/
structure OrderIdentity extends NewOrder where
  createdAt : ℕ

/-- A row of `economy_orders`; times are in milliseconds. -/
structure OrderRow extends OrderIdentity where
  state : OrderState := .paid
  output : Option Json := none
  outputHash : Option Bytes32 := none
  deliveryToken : Option JsString := none
  deliveryLeaseUntil : Option ℕ := none
  deliveryAttempts : ℕ := 0
  deliveryError : Option JsString := none
  updatedAt : ℕ

namespace OrderRow

/-- The constraints between columns. -/
def Consistent (row : OrderRow) : Prop :=
  (row.state = .fulfilled ↔ row.output.isSome = true ∧ row.outputHash.isSome = true) ∧
    (row.deliveryToken = none ↔ row.deliveryLeaseUntil = none)

instance (row : OrderRow) : Decidable row.Consistent :=
  inferInstanceAs (Decidable (_ ∧ _))

/-- The constraints are checked for every version of a row. -/
def checked (row : OrderRow) : Except ApiError OrderRow :=
  if row.Consistent then .ok row else .error .checkViolation

theorem checked_ok {row row' : OrderRow} :
    row.checked = .ok row' ↔ row.Consistent ∧ row' = row := by
  unfold checked
  split_ifs with h
  · simp only [Except.ok.injEq, h, true_and, eq_comm]
  · simp [h]

end OrderRow

namespace OrderRow

variable (row : OrderRow) (now : ℕ)

/-- A delivery attempt that starts now. -/
def claim (token : JsString) : OrderRow :=
  { row with
    state := .delivering, deliveryToken := some token,
    deliveryLeaseUntil := some (now + 90 * 1000), deliveryAttempts := row.deliveryAttempts + 1,
    deliveryError := none, updatedAt := now }

/-- The attempt has delivered. -/
def fulfil (output : Json) (outputHash : Bytes32) : OrderRow :=
  { row with
    state := .fulfilled, output := some output, outputHash := some outputHash,
    deliveryToken := none, deliveryLeaseUntil := none, updatedAt := now }

/-- The attempt has failed. -/
def release (message : JsString) : OrderRow :=
  { row with
    state := .paid, deliveryError := some message, deliveryToken := none,
    deliveryLeaseUntil := none, updatedAt := now }

end OrderRow

/-- The row of an order that is inserted. -/
def NewOrder.stored (order : NewOrder) (now : ℕ) (request definition : Json) : OrderRow :=
  { order with request, definition, createdAt := now, updatedAt := now }

/-- The table, the clock of the database, and for every token that was drawn who drew it.  The
last is no part of the system; it is what the history says of the tokens. -/
structure OrderDb (ι : Type) where
  orders : Table OrderRow Bytes32 fun row => row.orderId
  now : ℕ
  drawn : JsString → Option ι

variable {ι : Type}

/-- A statement on the table. -/
def OrderDb.run {α : Type}
    (f : Statement (Table OrderRow Bytes32 fun row => row.orderId) ApiError α) :
    Statement (OrderDb ι) ApiError α :=
  fun d => (f d.orders).map fun x => (x.1, { d with orders := x.2 })

/-- `SELECT * FROM economy_orders WHERE order_id=… AND user_id=…` -/
def selectOrder (orderId : Bytes32) (userId : JsString) :
    Statement (OrderDb ι) ApiError (Option OrderRow) :=
  Statement.read fun d => (d.orders.get orderId).filter fun row => row.userId = userId

/-- `INSERT INTO economy_orders(…) VALUES(…) ON CONFLICT(order_id) DO NOTHING RETURNING *` -/
def insertOrder (J : Jsonb) (order : NewOrder) :
    Statement (OrderDb ι) ApiError (Option OrderRow) := fun d =>
  match J.store order.request, J.store order.definition with
  | some request, some definition =>
    OrderDb.run (Table.insertNew (order.stored d.now request definition) fun orders =>
      if orders.rows.any fun row => row.transactionHash = order.transactionHash then
        some .uniqueViolation
      else none) d
  | _, _ => .error .untranslatable

/-- The lease has run out; there may be none. -/
def expired (now : ℕ) : Option ℕ → Bool
  | some lease => lease < now
  | none => false

/-- `UPDATE economy_orders SET state='delivering',delivery_token=…,… WHERE order_id=… AND user_id=…
AND (state='paid' OR (state='delivering' AND delivery_lease_until<now())) RETURNING *` -/
def claimDelivery (orderId : Bytes32) (userId token : JsString) :
    Statement (OrderDb ι) ApiError (Option OrderRow) := fun d =>
  OrderDb.run (Table.update orderId
    (fun row => row.userId = userId ∧ (row.state = .paid ∨
      row.state = .delivering ∧ expired d.now row.deliveryLeaseUntil))
    fun row => do
      let _ ← increment row.deliveryAttempts
      (row.claim d.now token).checked) d

/-- `UPDATE economy_orders SET state='fulfilled',output=…,… WHERE order_id=… AND user_id=… AND
state='delivering' AND delivery_token=… RETURNING *` -/
def completeDelivery (J : Jsonb) (orderId : Bytes32) (userId token : JsString) (output : Json)
    (outputHash : Bytes32) : Statement (OrderDb ι) ApiError (Option OrderRow) := fun d =>
  match J.store output with
  | none => .error .untranslatable
  | some output =>
    OrderDb.run (Table.update orderId
      (fun row => row.userId = userId ∧ row.state = .delivering ∧ row.deliveryToken = some token)
      fun row => (row.fulfil d.now output outputHash).checked) d

/-- `UPDATE economy_orders SET state='paid',delivery_error=…,… WHERE order_id=… AND user_id=… AND
delivery_token=…` -/
def releaseDelivery (orderId : Bytes32) (userId token message : JsString) :
    Statement (OrderDb ι) ApiError Unit := fun d =>
  (OrderDb.run (Table.update orderId
    (fun row => row.userId = userId ∧ row.deliveryToken = some token)
    fun row => (row.release d.now message).checked) d).map fun x => ((), x.2)

/-! ### What the statements do -/

variable {d d' : OrderDb ι} {orderId : Bytes32} {userId token message : JsString}
  {o : Option OrderRow} {J : Jsonb} {order : NewOrder} {output : Json} {outputHash : Bytes32}

theorem OrderDb.run_ok {α : Type} {a : α}
    {f : Statement (Table OrderRow Bytes32 fun row => row.orderId) ApiError α} :
    OrderDb.run f d = .ok (a, d') ↔ ∃ t, f d.orders = .ok (a, t) ∧ d' = { d with orders := t } := by
  unfold OrderDb.run
  cases f d.orders with
  | error e => simp [Except.map]
  | ok x =>
    obtain ⟨b, t⟩ := x
    simp only [Except.map, Except.ok.injEq, Prod.mk.injEq]
    constructor
    · rintro ⟨rfl, rfl⟩; exact ⟨t, ⟨rfl, rfl⟩, rfl⟩
    · rintro ⟨_, ⟨rfl, rfl⟩, rfl⟩; exact ⟨rfl, rfl⟩

theorem OrderDb.run_error {α : Type} {e : ApiError}
    {f : Statement (Table OrderRow Bytes32 fun row => row.orderId) ApiError α} :
    OrderDb.run f d = .error e ↔ f d.orders = .error e := by
  unfold OrderDb.run
  cases f d.orders <;> simp [Except.map]

/-- A row that is claimed, and the one before. -/
theorem claimDelivery_ok : claimDelivery orderId userId token d = .ok (o, d') →
    (o = none ∧ d' = d) ∨
      ∃ row, d.orders.get orderId = some row ∧ row.userId = userId ∧
        (row.state = .paid ∨ row.state = .delivering ∧ expired d.now row.deliveryLeaseUntil) ∧
        row.deliveryAttempts < int4Max ∧ (row.claim d.now token).Consistent ∧
        o = some (row.claim d.now token) ∧
        d' = { d with orders := d.orders.replace (row.claim d.now token) } := by
  intro h
  obtain ⟨t, ht, rfl⟩ := OrderDb.run_ok.1 h
  rcases Table.update_ok.1 ht with ⟨rfl, rfl, -⟩ | ⟨row, row', hrow, hcond, hset, rfl, rfl⟩
  · exact Or.inl ⟨rfl, rfl⟩
  · simp only [bind_eq_ok, OrderRow.checked_ok, increment_ok] at hset
    obtain ⟨_, ⟨hattempts, -⟩, hconsistent, rfl⟩ := hset
    obtain ⟨huser, hstate⟩ := of_decide_eq_true hcond
    exact Or.inr ⟨row, hrow, huser, hstate, hattempts, hconsistent, rfl, rfl⟩

/-- A row that is fulfilled, and the one before. -/
theorem completeDelivery_ok :
    completeDelivery J orderId userId token output outputHash d = .ok (o, d') →
    (o = none ∧ d' = d) ∨
      ∃ row stored, d.orders.get orderId = some row ∧ row.state = .delivering ∧
        row.deliveryToken = some token ∧ J.store output = some stored ∧
        o = some (row.fulfil d.now stored outputHash) ∧
        d' = { d with orders := d.orders.replace (row.fulfil d.now stored outputHash) } := by
  intro h
  unfold completeDelivery at h
  split at h
  · cases h
  · rename_i stored hstored
    obtain ⟨t, ht, rfl⟩ := OrderDb.run_ok.1 h
    rcases Table.update_ok.1 ht with ⟨rfl, rfl, -⟩ | ⟨row, row', hrow, hcond, hset, rfl, rfl⟩
    · exact Or.inl ⟨rfl, rfl⟩
    · obtain ⟨-, rfl⟩ := OrderRow.checked_ok.1 hset
      obtain ⟨-, hstate, htoken⟩ := of_decide_eq_true hcond
      exact Or.inr ⟨row, stored, hrow, hstate, htoken, hstored, rfl, rfl⟩

/-- A row that is released, and the one before. -/
theorem releaseDelivery_ok {u : Unit} :
    releaseDelivery orderId userId token message d = .ok (u, d') →
    d' = d ∨
      ∃ row, d.orders.get orderId = some row ∧ row.deliveryToken = some token ∧
        (row.release d.now message).Consistent ∧
        d' = { d with orders := d.orders.replace (row.release d.now message) } := by
  intro h
  unfold releaseDelivery at h
  obtain ⟨⟨o, d''⟩, hrun, hd⟩ := map_eq_ok.1 h
  obtain rfl : d'' = d' := (Prod.mk.inj hd).2
  obtain ⟨t, ht, rfl⟩ := OrderDb.run_ok.1 hrun
  rcases Table.update_ok.1 ht with ⟨-, rfl, -⟩ | ⟨row, row', hrow, hcond, hset, rfl, rfl⟩
  · exact Or.inl rfl
  · obtain ⟨hconsistent, rfl⟩ := OrderRow.checked_ok.1 hset
    exact Or.inr ⟨row, hrow, (of_decide_eq_true hcond).2, hconsistent, rfl⟩

/-- A row that is inserted is of a new order and a new transaction. -/
theorem insertOrder_ok : insertOrder J order d = .ok (o, d') →
    (o = none ∧ d' = d ∧ ∃ row, d.orders.get order.orderId = some row) ∨
      ∃ request definition, J.store order.request = some request ∧
        J.store order.definition = some definition ∧ d.orders.get order.orderId = none ∧
        (∀ id row, d.orders.get id = some row → row.transactionHash ≠ order.transactionHash) ∧
        o = some (order.stored d.now request definition) ∧
        d' = { d with orders := d.orders.insert (order.stored d.now request definition) } := by
  intro h
  unfold insertOrder at h
  split at h
  · rename_i request definition hrequest hdefinition
    obtain ⟨t, ht, rfl⟩ := OrderDb.run_ok.1 h
    rcases Table.insertNew_ok.1 ht with ⟨rfl, rfl, hrow⟩ | ⟨rfl, rfl, hfree, hnew⟩
    · exact Or.inl ⟨rfl, rfl, hrow⟩
    · refine Or.inr ⟨request, definition, hrequest, hdefinition, hfree, ?_, rfl, rfl⟩
      intro id row hrow heq
      rw [if_pos (Table.any_iff.2 ⟨id, row, hrow, by simpa using heq⟩)] at hnew
      cases hnew
  · cases h

/-! ### The public projection -/

/-- What the platform shows of an order; the times are shown with `toISOString`. -/
structure PublicOrder where
  orderId : JsString
  serviceHash : JsString
  transactionHash : JsString
  state : JsString
  deliveryAttempts : ℕ
  createdAt : ℕ
  updatedAt : ℕ
  output : Option Json
  outputHash : Option JsString
  deliveryError : Option JsString

/-- `publicEconomyOrder(row)` -/
def publicEconomyOrder (row : OrderRow) : PublicOrder where
  orderId := row.orderId.text
  serviceHash := row.serviceHash.text
  transactionHash := row.transactionHash.text
  state := row.state.text
  deliveryAttempts := row.deliveryAttempts
  createdAt := row.createdAt
  updatedAt := row.updatedAt
  -- `row.output ? {output: …, outputHash: …} : {}`
  output := if Circle.truthy row.output then row.output else none
  outputHash :=
    if Circle.truthy row.output then
      some (match row.outputHash with | some hash => hash.text | none => js "null")
    else none
  deliveryError := row.deliveryError.filter fun message => message ≠ []

end Marketplace

end Obolos
