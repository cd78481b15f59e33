import Obolos.Economy.Executor
import Obolos.Economy.KeyOrder
import Obolos.Economy.OrderTable
import Obolos.Economy.RemoteService

/-!
# What was delivered can be collected

An output passes through four hands: the provider answers with it, the platform stores it in a
`jsonb` column and shows it again, and the executor of the buyer checks it.  `collectable_iff` :
the executor accepts what the platform recorded unless JavaScript takes the output for false.  An
output `null`, `false`, `0` or `""` is accepted from the provider and recorded as delivered, but
it is not shown, so the order stays `paid` at the buyer for ever (`output_hidden`).
-/

namespace Obolos

/-! ### The executor's check -/

namespace Executor

variable (H : Host) (d : ExecutorDependencies) (intent : ExecutorInput)

/-- What `collect` asks of a delivery, and the state after it. -/
def checkDelivery (state : ExecutorState) (result : Delivery) : Except JsError ExecutorState := do
  if result.state ≠ js "fulfilled" then
    JsError.raise "Paid delivery remains pending; retry the same input."
  if result.orderId ≠ intent.orderId.text ∨ result.serviceHash ≠ intent.serviceHash.text ∨
      some result.transactionHash ≠ state.paymentHash.map Bytes32.text then
    JsError.raise "Unbound provider output."
  match result.output with
  | none => JsError.raise "Value is not JSON"
  | some output => do
    let outputHash ← output.canonicalJsonHash H
    if result.outputHash ≠ some outputHash.text then JsError.raise "Unbound provider output."
    output.validateSchemaValue H intent.definition.outputSchema (128 * 1024)
    return { state with output := some output, outputHash := some outputHash, phase := .delivered }

variable {H d intent} {state : ExecutorState} {result : Delivery} {request : ServiceRequest}

/-- Between fetching and saving, `collect` only checks. -/
theorem collect_eq : collect H d intent state request = (do
    let result ← d.deliver request
    let state ← Prog.ofExcept (checkDelivery H intent state result)
    persist intent state
    return state) := by
  unfold collect
  congr 1
  funext result
  unfold checkDelivery
  by_cases hstate : result.state ≠ js "fulfilled"
  · simp only [if_pos hstate]
    rfl
  · simp only [if_neg hstate]
    by_cases hbound : result.orderId ≠ intent.orderId.text ∨
        result.serviceHash ≠ intent.serviceHash.text ∨
        some result.transactionHash ≠ state.paymentHash.map Bytes32.text
    · simp only [if_pos hbound]
      rfl
    · simp only [if_neg hbound]
      cases result.output with
      | none => rfl
      | some output =>
        simp only
        cases output.canonicalJsonHash H with
        | error e => rfl
        | ok outputHash =>
          by_cases hhash : result.outputHash ≠ some outputHash.text
          · simp only [bind, Except.bind, Prog.ofExcept, Prog.bind, if_pos hhash]
            rfl
          · simp only [bind, Except.bind, Prog.ofExcept, Prog.bind, if_neg hhash]
            cases output.validateSchemaValue H intent.definition.outputSchema (128 * 1024) <;> rfl

/-- A delivery that is accepted. -/
theorem checkDelivery_ok {state' : ExecutorState} :
    checkDelivery H intent state result = .ok state' ↔
      result.state = js "fulfilled" ∧
      (result.orderId = intent.orderId.text ∧ result.serviceHash = intent.serviceHash.text ∧
        some result.transactionHash = state.paymentHash.map Bytes32.text) ∧
      ∃ output outputHash, result.output = some output ∧
        output.canonicalJsonHash H = .ok outputHash ∧ result.outputHash = some outputHash.text ∧
        output.validateSchemaValue H intent.definition.outputSchema (128 * 1024) = .ok () ∧
        state' = { state with
          output := some output, outputHash := some outputHash, phase := .delivered } := by
  simp only [checkDelivery, JsError.raise, JsError.throwIf_eq_ok, not_or, not_not]
  refine and_congr_right fun _ => and_congr_right fun _ => ?_
  cases result.output with
  | none => simp
  | some output =>
    simp only [bind_eq_ok, JsError.throwIf_eq_ok, pure_eq_ok, not_not, Option.some.injEq]
    constructor
    · rintro ⟨hash, hhash, hresult, _, hschema, rfl⟩
      exact ⟨output, hash, rfl, hhash, hresult, hschema, rfl⟩
    · rintro ⟨_, hash, rfl, hhash, hresult, hschema, rfl⟩
      exact ⟨hash, hhash, hresult, _, hschema, rfl⟩

end Executor

/-! ### From the provider to the buyer -/

namespace Marketplace

open Executor (ExecutorState checkDelivery)

/-- What the executor receives of an order. -/
def PublicOrder.delivery (order : PublicOrder) : Executor.Delivery where
  orderId := order.orderId
  serviceHash := order.serviceHash
  transactionHash := order.transactionHash
  state := order.state
  output := order.output
  outputHash := order.outputHash

/-- The purchase of the executor for the order in a row: the definition in its input has the same
schema for the output. -/
structure Buys (state : ExecutorState) (row : OrderRow) (service : ServiceDefinition) : Prop where
  orderId : state.intent.orderId = row.orderId
  serviceHash : state.intent.serviceHash = row.serviceHash
  paymentHash : state.paymentHash = some row.transactionHash
  distinct : state.intent.definition.outputSchema.Distinct
  distinct' : service.outputSchema.Distinct
  same : Json.Same service.outputSchema state.intent.definition.outputSchema

/-- The order carries an output and its hash, and the purchase moves from `paid` to `delivered`. -/
structure Collectable (H : Host) (state : ExecutorState) (order : PublicOrder) : Prop where
  carries : ∃ output hash, order.output = some output ∧ output.canonicalJsonHash H = .ok hash ∧
    order.outputHash = some hash.text
  delivered : ∃ state', checkDelivery H state.intent state order.delivery = .ok state' ∧
    state'.phase = .delivered

/-- An output that JavaScript takes for true. -/
def Present (output : Json) : Prop :=
  output ≠ .null ∧ output ≠ .bool false ∧ output ≠ .num 0 ∧ output ≠ .str []

theorem truthy_iff {output : Json} : Circle.truthy (some output) = true ↔ Present output := by
  cases output with
  | bool b => cases b <;> simp [Circle.truthy, Present]
  | _ => simp [Circle.truthy, Present]

/-- Storing a value changes the order of its keys at most, which a presence check does not see. -/
theorem present_same {x y : Json} (h : Json.Same x y) : Present x ↔ Present y := by
  cases h <;> simp [Present]

section Collected

variable {ι : Type} {H : Host} {J : Jsonb} {d d' : OrderDb ι} {row stored : OrderRow}
  {service : ServiceDefinition} {request : ServiceRequest} {body : Json}
  {result : ServiceResponse} {state : ExecutorState} {userId token : JsString}

/-- What is shown of an output that is taken for true. -/
theorem collectable_of_present {output : Json} {outputHash : Bytes32} {now : ℕ}
    (hbuys : Buys state row service) (hpresent : Present output)
    (hhash : output.canonicalJsonHash H = .ok outputHash)
    (hschema : output.validateSchemaValue H state.intent.definition.outputSchema (128 * 1024) =
      .ok ()) :
    Collectable H state (publicEconomyOrder (row.fulfil now output outputHash)) := by
  have hshown : Circle.truthy (row.fulfil now output outputHash).output = true :=
    truthy_iff.2 hpresent
  have houtput : (publicEconomyOrder (row.fulfil now output outputHash)).output = some output :=
    if_pos hshown
  have houtputHash : (publicEconomyOrder (row.fulfil now output outputHash)).outputHash =
      some outputHash.text := if_pos hshown
  refine ⟨⟨output, outputHash, houtput, hhash, houtputHash⟩, _,
    Executor.checkDelivery_ok.2 ⟨rfl, ⟨?_, ?_, ?_⟩, output, outputHash, houtput, hhash,
      houtputHash, hschema, rfl⟩, rfl⟩
  · rw [hbuys.orderId]; rfl
  · rw [hbuys.serviceHash]; rfl
  · rw [hbuys.paymentHash]; rfl

/-- **What was delivered can be collected** unless it is hidden: when the platform has recorded an
accepted output, the order carries it with its hash, and the executor of the buyer accepts it,
exactly if the output is not `null`, `false`, `0` or `""`. -/
theorem collectable_iff (hrow : d.orders.get row.orderId = some row)
    (hbuys : Buys state row service) (hbody : body.Distinct)
    (haccept : ServiceResponse.accept H service request body = .ok result)
    (hstored : completeDelivery J row.orderId userId token result.output result.outputHash d =
      .ok (some stored, d')) :
    Collectable H state (publicEconomyOrder stored) ↔ Present result.output := by
  obtain ⟨hparse, -, hhash, hschema⟩ := ServiceResponse.accept_ok.1 haccept
  have hdistinct := ServiceResponse.distinct_of_parse hparse hbody
  rcases completeDelivery_ok hstored with ⟨h, -⟩ | ⟨row', output, hrow', -, -, hstore, ho, -⟩
  · cases h
  obtain rfl : row = row' := Option.some.inj (hrow.symm.trans hrow')
  obtain rfl := Option.some.inj ho
  obtain ⟨hdistinct', hsame⟩ :=
    J.store_same hdistinct (Json.finite_of_canonicalJsonHash hhash) hstore
  have hsame' : Json.Same result.output output := hsame.symm hdistinct' hdistinct
  rw [present_same hsame']
  constructor
  · rintro ⟨⟨shown, hash, hshown, -⟩, -⟩
    by_contra hhidden
    -- A hidden output is not shown.
    have hfalse : ¬ Circle.truthy (row.fulfil d.now output result.outputHash).output = true :=
      fun h => hhidden (truthy_iff.1 h)
    rw [publicEconomyOrder] at hshown
    simp only [if_neg hfalse, reduceCtorEq] at hshown
  · intro hpresent
    refine collectable_of_present hbuys hpresent
      (Json.canonicalJsonHash_same hdistinct hdistinct' hsame' hhash) ?_
    exact Json.validateSchemaValue_same hdistinct hdistinct' hsame' hbuys.distinct' hbuys.distinct
      hbuys.same hschema

end Collected

/-! ### A hidden output -/

namespace Demo

open Obolos.Demo (host request paid)

/-- `{"type":"boolean"}` -/
def schema : Json := .obj [(js "type", .str (js "boolean"))]

/-- The service of the small deployment, with an answer of yes or no. -/
def service : ServiceDefinition := { Obolos.Demo.service with outputSchema := schema }

/-- The answer of the provider. -/
def response (answer : Bool) : ServiceResponse where
  orderId := request.orderId
  serviceHash := service.serviceHash
  inputHash := request.inputHash
  outputHash := host.textHash ((Json.bool answer).canonicalJson host.numerals)
  output := .bool answer

/-- A column that keeps values as they are. -/
def column : Jsonb := .identity

/-- The row of the order during its first delivery. -/
def row : OrderRow where
  orderId := request.orderId
  userId := js "u"
  platformAgentId := js "x"
  serviceHash := service.serviceHash
  requestHash := host.textHash (request.json.canonicalJson host.numerals)
  request := request.json
  definition := service.json
  transactionHash := request.transactionHash
  receipt := paid.lab.receipt
  createdAt := 0
  state := .delivering
  deliveryToken := some (js "t")
  deliveryLeaseUntil := some 90000
  deliveryAttempts := 1
  updatedAt := 0

/-- The table with this row. -/
def db : OrderDb Unit where
  orders := Table.empty.insert row
  now := 1
  drawn := fun _ => some ()

/-- The purchase at the buyer. -/
def purchase : ExecutorState where
  intent :=
    { origin := js "https://o", platformAgentId := js "x", orderId := 11, owner := 4, payer := 5,
      definition := service, serviceHash := service.serviceHash, input := .null,
      maxAmountAtomic := 60, expiry := 50 }
  intentHash := 0
  versions := ⟨3, 2, 1⟩
  phase := .paid
  paymentHash := some request.transactionHash

theorem distinct_schema : schema.Distinct := .obj (by simp) (by simp [Json.Distinct.str])

theorem buys : Buys purchase row service :=
  ⟨rfl, rfl, rfl, distinct_schema, distinct_schema, .refl distinct_schema⟩

theorem distinct_response (answer : Bool) : (response answer).json.Distinct := by
  refine .obj (by simp [js_inj]) ?_
  simp only [List.forall_mem_cons, List.not_mem_nil, false_imp_iff,
    implies_true, and_true]
  exact ⟨.str _, .str _, .str _, .str _, .str _, .bool _⟩

theorem accepted (answer : Bool) :
    ServiceResponse.accept host service request (response answer).json = .ok (response answer) := by
  refine ServiceResponse.accept_ok.2 ⟨ServiceResponse.parse_json _, ⟨rfl, rfl, rfl⟩, ?_, ?_⟩
  · refine Json.canonicalJsonHash_ok.2 ⟨Json.ok_of_isOk ?_, rfl⟩
    cases answer <;> decide +kernel
  · refine Json.validateSchemaValue_ok.2 ⟨Json.ok_of_isOk ?_, by decide +kernel, ?_⟩
    · cases answer <;> decide +kernel
    · cases answer <;> decide +kernel

theorem stored (answer : Bool) :
    ∃ d', completeDelivery column row.orderId (js "u") (js "t") (response answer).output
      (response answer).outputHash db =
        .ok (some (row.fulfil 1 (response answer).output (response answer).outputHash), d') :=
  ⟨_, rfl⟩

end Demo

/-- Yes is collected. -/
theorem collectable_iff_yes : Collectable Obolos.Demo.host Demo.purchase
    (publicEconomyOrder (Demo.row.fulfil 1 (.bool true) (Demo.response true).outputHash)) := by
  obtain ⟨d', hstored⟩ := Demo.stored true
  refine (collectable_iff (H := Obolos.Demo.host) rfl Demo.buys (Demo.distinct_response true)
    (Demo.accepted true) hstored).2 ?_
  simp [Demo.response, Present]

/-- No was accepted from the provider and is recorded as delivered, but it is never collected. -/
theorem output_hidden :
    ServiceResponse.accept Obolos.Demo.host Demo.service Obolos.Demo.request
        (Demo.response false).json = .ok (Demo.response false) ∧
      (∃ d', completeDelivery Demo.column Demo.row.orderId (js "u") (js "t")
        (Demo.response false).output (Demo.response false).outputHash Demo.db =
          .ok (some (Demo.row.fulfil 1 (.bool false) (Demo.response false).outputHash), d')) ∧
      (Demo.row.fulfil 1 (.bool false) (Demo.response false).outputHash).state = .fulfilled ∧
      (publicEconomyOrder (Demo.row.fulfil 1 (.bool false) (Demo.response false).outputHash)).output =
        none ∧
      ¬ ∃ state', checkDelivery Obolos.Demo.host Demo.purchase.intent Demo.purchase
        (publicEconomyOrder
          (Demo.row.fulfil 1 (.bool false) (Demo.response false).outputHash)).delivery = .ok state' := by
  refine ⟨Demo.accepted false, Demo.stored false, rfl, rfl, ?_⟩
  rintro ⟨state', h⟩
  obtain ⟨-, -, output, hash, hshown, -⟩ := Executor.checkDelivery_ok.1 h
  cases hshown

end Marketplace

end Obolos
