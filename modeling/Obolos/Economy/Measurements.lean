import Obolos.Economy.ServiceContract
import Obolos.Js.BigInt
import Obolos.Js.StableSort
import Obolos.Runs.Contracts

/-!
# Observed economic measurements

`calculateMeasurements` turns the finalized settlements, refunds, registered quotes, agents and
balances of one block into the published measurements.  A `number` is an exact rational: those that
are not finite are refused by the first check made of them, and the divisions of times that are safe
integers are exact after `Math.floor`.

`MeasurementSettlement.row` and `MeasurementRefund.row` stand for the whole records, which only the
hash of the input reads.  The texts of `limitations` are left out.
-/

namespace Obolos

namespace Measurements

open Json Runs

/-- `string | bigint` -/
inductive Amount
  | text (s : JsString)
  | bigint (n : ℤ)
  deriving DecidableEq

/-- `BigInt(value)` -/
def Amount.value : Amount → Option ℤ
  | text s => readBigInt s
  | bigint n => some n

/-- A `bigint` is digested as its text. -/
def bigintJson (n : ℤ) : Json := .str (bigintText n)

/-- The value of a field that may be `null`. -/
def orNull {α : Type} (f : α → Json) : Option α → Json
  | none => .null
  | some a => f a

/-- An amount, as it is digested. -/
def Amount.json : Amount → Json
  | text s => .str s
  | bigint n => bigintJson n

/-- What the measurements read of `MeasurementSettlement`; `null` and a missing field are alike. -/
structure MeasurementSettlement where
  orderId : JsString
  agentId : JsString
  asset : JsString
  quantity : ℤ
  principalAtomic : ℤ
  sellerAtomic : ℤ
  timestamp : ℚ
  delivered : Bool
  buyerAcknowledged : Bool
  deliveredAt : Option ℚ
  acknowledgedAt : Option ℚ
  transactionHash : Option JsString
  row : Json

/-- `MeasurementService` -/
structure MeasurementService where
  serviceHash : JsString
  seller : JsString
  category : JsString
  unitHash : JsString
  quantity : Amount
  unitPrice : Amount
  endpointHash : JsString
  registeredAt : ℚ
  transactionHash : JsString
  deriving DecidableEq

/-- A service, as it is digested. -/
def MeasurementService.json (s : MeasurementService) : Json :=
  .obj [(js "serviceHash", .str s.serviceHash), (js "seller", .str s.seller),
    (js "category", .str s.category), (js "unitHash", .str s.unitHash),
    (js "quantity", s.quantity.json), (js "unitPrice", s.unitPrice.json),
    (js "endpointHash", .str s.endpointHash), (js "registeredAt", .num s.registeredAt),
    (js "transactionHash", .str s.transactionHash)]

/-- An agent at the measured block. -/
structure MeasurementAgent where
  agentId : JsString
  executor : JsString
  active : Bool

/-- An agent, as it is digested. -/
def MeasurementAgent.json (a : MeasurementAgent) : Json :=
  .obj [(js "agentId", .str a.agentId), (js "executor", .str a.executor),
    (js "active", .bool a.active)]

/-- The balance of an executor; `null` when it is not known. -/
structure Balance where
  address : JsString
  balanceAtomic : Option ℤ

/-- A balance, as it is digested. -/
def Balance.json (b : Balance) : Json :=
  .obj [(js "address", .str b.address), (js "balanceAtomic", orNull bigintJson b.balanceAtomic)]

/-- A recorded refund. -/
structure MeasurementRefund where
  orderId : JsString
  amountAtomic : ℤ
  timestamp : ℚ
  transactionHash : Option JsString
  logIndex : Option ℚ
  row : Json

/-- `MeasurementInput` -/
structure MeasurementInput where
  settlements : List MeasurementSettlement
  services : List MeasurementService
  agents : List MeasurementAgent
  balances : List Balance
  asOf : ℚ
  blockNumber : JsString
  blockHash : JsString
  fromTimestamp : ℚ
  refunds : List MeasurementRefund

/-- `MeasurementWindow` -/
structure MeasurementWindow where
  start : ℚ
  endInclusive : ℚ
  settlementCount : ℕ
  grossPaymentsAtomic : ℤ
  sellerRevenueAtomic : ℤ
  refundAtomic : ℤ
  refundCount : ℕ
  deliveredCount : ℕ
  acknowledgedCount : ℕ
  orderIds : List JsString
  deliveredOrderIds : List JsString
  acknowledgedOrderIds : List JsString

/-- `MeasurementPriceComponent` -/
structure MeasurementPriceComponent where
  category : JsString
  weightBps : ℤ
  familyServiceHash : JsString
  seller : JsString
  unitHash : JsString
  quantity : ℤ
  endpointHash : JsString
  baselineServiceHash : Option JsString
  baselineTransactionHash : Option JsString
  baselineAtomic : Option ℤ
  baselineRegisteredAt : Option ℚ
  currentServiceHash : JsString
  currentTransactionHash : JsString
  currentAtomic : ℤ
  currentRegisteredAt : ℚ

/-- One quote of a closed day. -/
structure ClosedQuote where
  category : JsString
  serviceHash : JsString
  transactionHash : JsString
  unitPriceAtomic : ℤ
  registeredAt : ℚ

/-- `MeasurementPriceSnapshot`: `end` is a keyword of Lean. -/
structure MeasurementPriceSnapshot where
  start : ℚ
  endExclusive : ℚ
  indexBps : ℤ
  quotes : List ClosedQuote

/-- One unit of purchasing power. -/
structure PurchasingPower where
  category : JsString
  serviceHash : JsString
  transactionHash : JsString
  unitHash : JsString
  quantity : ℤ
  unitPriceAtomic : ℤ
  unitsPerUsdcMillionths : ℤ
  ordersPerUsdcMillionths : ℤ

/-- `EconomyMeasurements['activity']` -/
structure Activity where
  start : ℚ
  endInclusive : ℚ
  activeAgentCount : ℕ
  fulfilledAgentCount : ℕ
  utilizationBps : Option ℤ
  activeAgentIds : List JsString
  fulfilledAgentIds : List JsString
  lifetimeFulfilledAgentCount : ℕ

/-- `EconomyMeasurements['capital']` -/
structure Capital where
  complete : Bool
  executorCount : ℕ
  totalAtomic : Option ℤ
  knownBalanceAtomic : ℤ
  missingExecutorAddresses : List JsString
  balances : List Balance
  todayTurnoverBps : Option ℤ
  lifetimeTurnoverBps : Option ℤ

/-- `EconomyMeasurements['prices']` -/
structure Prices where
  basketId : Option Bytes32
  baselineAt : Option ℚ
  complete : Bool
  missingCategories : List JsString
  indexBps : Option ℤ
  baselineChangeBps : Option ℤ
  components : List MeasurementPriceComponent
  priorClosedDay : Option MeasurementPriceSnapshot
  precedingClosedDay : Option MeasurementPriceSnapshot
  periodInflationBps : Option ℤ
  changeSincePriorCloseBps : Option ℤ
  purchasingPower : List PurchasingPower

/-- `EconomyMeasurements['provenance']` -/
structure Provenance where
  blockNumber : JsString
  blockHash : JsString
  asOf : ℚ
  fromTimestamp : ℚ
  inputHash : Bytes32
  orderIds : List JsString
  settlementTransactionHashes : List JsString
  serviceHashes : List JsString
  serviceTransactionHashes : List JsString
  refundSources : List MeasurementRefund
  missingDeliveryTimestampOrderIds : List JsString
  missingAcknowledgmentTimestampOrderIds : List JsString

/-- `EconomyMeasurements` -/
structure EconomyMeasurements where
  asOf : ℚ
  blockNumber : JsString
  blockHash : JsString
  today : MeasurementWindow
  lifetime : MeasurementWindow
  activity : Activity
  capital : Capital
  prices : Prices
  provenance : Provenance

/-! ### Settlements and refunds -/

def resourceCategories : List JsString :=
  [js "data", js "compute", js "inference", js "verification", js "storage"]

def daySeconds : ℚ := 86400

def bps : ℤ := 10000

def validTime (value : ℚ) : Bool := isSafeInteger value && decide (0 ≤ value)

variable (H : Host)

/-- `digest(value)`, for the value as it is after `JSON.parse(JSON.stringify(…))`. -/
def digest (value : Json) : Bytes32 := H.textHash (value.canonicalJson H.numerals)

/-- `unique(values)`: the first of equal texts stays. -/
def unique (values : List JsString) : List JsString :=
  values.foldl (fun seen v => if v ∈ seen then seen else seen ++ [v]) []

/-- `/^\d+$/.test(text)` -/
def isDigits (s : JsString) : Bool := !s.isEmpty && s.all fun c => 48 ≤ c && c ≤ 57

/-- The start of the UTC day. -/
def dayStart (time : ℚ) : ℚ := (time / daySeconds).floor * daySeconds

/-- `kind` of `eventTime` -/
inductive EventKind
  | delivered | acknowledged

/-- Whether the order has the event. -/
def MeasurementSettlement.flag (order : MeasurementSettlement) : EventKind → Bool
  | .delivered => order.delivered
  | .acknowledged => order.buyerAcknowledged

/-- When the row says the event was. -/
def MeasurementSettlement.time (order : MeasurementSettlement) : EventKind → Option ℚ
  | .delivered => order.deliveredAt
  | .acknowledged => order.acknowledgedAt

def eventTime (order : MeasurementSettlement) (kind : EventKind) : Option ℚ :=
  if order.flag kind then order.time kind else none

/-- The checks of one settlement, after the earlier ones. -/
def checkSettlement (seenOrders : List JsString) (order : MeasurementSettlement) :
    Except JsError (List JsString) :=
  if order.orderId ∈ seenOrders then JsError.raise "Duplicate measurement order."
  else if !validTime order.timestamp || order.quantity ≤ 0 || order.principalAtomic < 0 ||
      order.sellerAtomic < 0 || order.principalAtomic < order.sellerAtomic then
    JsError.raise "Invalid observed settlement."
  else if [order.deliveredAt, order.acknowledgedAt].any fun time =>
      time.any fun time => !validTime time || time < order.timestamp then
    JsError.raise "Invalid completion timestamp."
  else .ok (order.orderId :: seenOrders)

/-- The checks of one refund. -/
def checkRefund (r : MeasurementRefund) : Except JsError Unit :=
  if r.timestamp < 0 || 2 ^ 53 - 1 < r.timestamp || r.amountAtomic < 0 ||
      r.logIndex.any fun n => !isSafeInteger n || n < 0 then
    JsError.raise "Invalid observed refund."
  else .ok ()

/-- `window(start,lifetime)` -/
def window (orders : List MeasurementSettlement) (refunds : List MeasurementRefund) (asOf : ℚ)
    (start : ℚ) (lifetime : Bool) : MeasurementWindow :=
  let selected := orders.filter fun o => start ≤ o.timestamp
  let selectedRefunds := refunds.filter fun r => start ≤ r.timestamp
  let occurred (o : MeasurementSettlement) (kind : EventKind) : Bool :=
    match eventTime o kind with
    | some time => decide (start ≤ time) && decide (time ≤ asOf)
    | none => lifetime && o.flag kind
  let delivered := orders.filter fun o => occurred o .delivered
  let acknowledged := orders.filter fun o => occurred o .acknowledged
  { start
    endInclusive := asOf
    settlementCount := selected.length
    grossPaymentsAtomic := (selected.map (·.principalAtomic)).sum
    sellerRevenueAtomic := (selected.map (·.sellerAtomic)).sum
    refundAtomic := (selectedRefunds.map (·.amountAtomic)).sum
    refundCount := selectedRefunds.length
    deliveredCount := delivered.length
    acknowledgedCount := acknowledged.length
    orderIds := selected.map (·.orderId)
    deliveredOrderIds := delivered.map (·.orderId)
    acknowledgedOrderIds := acknowledged.map (·.orderId) }

/-! ### Agents and balances -/

/-- `agents.set(agent.agentId,agent)`, after the check of an earlier row. -/
def addAgent (agents : List MeasurementAgent) (row : MeasurementAgent) :
    Except JsError (List MeasurementAgent) :=
  let agent := { row with executor := row.executor.toLowerCase }
  match agents.find? fun prior => prior.agentId = agent.agentId with
  | some prior =>
    if prior.executor ≠ agent.executor || prior.active ≠ agent.active then
      JsError.raise "Conflicting pinned agent state."
    else .ok (agents.map fun a => if a.agentId = agent.agentId then agent else a)
  | none => .ok (agents ++ [agent])

/-- `balanceMap.set(address,…)`: two balances of one address must agree, and one that is not known
makes both unknown. -/
def addBalance (balanceMap : List Balance) (b : Balance) : Except JsError (List Balance) :=
  let address := b.address.toLowerCase
  if b.balanceAtomic.any fun n => n < 0 then JsError.raise "Invalid pinned balance."
  else match balanceMap.find? fun old => old.address = address with
    | some old =>
      match old.balanceAtomic, b.balanceAtomic with
      | some n, some m =>
        if n ≠ m then JsError.raise "Conflicting balances at one pinned block."
        else .ok balanceMap
      | _, _ => .ok (balanceMap.map fun x =>
          if x.address = address then { x with balanceAtomic := none } else x)
    | none => .ok (balanceMap ++ [⟨address, b.balanceAtomic⟩])

/-- `balanceMap.get(address)??null` -/
def balanceOf (balanceMap : List Balance) (address : JsString) : Option ℤ :=
  (balanceMap.find? fun b => b.address = address).bind (·.balanceAtomic)

/-! ### Quotes -/

/-- `seenServices` and `services` -/
structure Registered where
  seen : List (JsString × Bytes32)
  services : List MeasurementService

/-- `BigInt(value)`, or its `SyntaxError`. -/
def bigInt (a : Amount) : Except JsError ℤ :=
  match a.value with
  | some n => .ok n
  | none => .error .other

/-- One step of the loop over `input.services`. -/
def register (asOf : ℚ) (R : Registered) (service : MeasurementService) :
    Except JsError Registered := do
  if !validTime service.registeredAt || !resourceCategories.contains service.category then
    JsError.raise "Invalid registered quote."
  if (← bigInt service.quantity) ≤ 0 then
    JsError.raise "Invalid registered quote."
  if (← bigInt service.unitPrice) ≤ 0 then
    JsError.raise "Invalid registered quote."
  let fingerprint := digest H service.json
  let prior := (R.seen.find? fun p => p.1 = service.serviceHash).map Prod.snd
  if prior.any fun p => p ≠ fingerprint then
    JsError.raise "Conflicting immutable service."
  return {
    seen := if prior.isSome then R.seen else R.seen ++ [(service.serviceHash, fingerprint)]
    services := if prior.isNone && decide (service.registeredAt ≤ asOf) then R.services ++ [service]
      else R.services }

/-- `quotes`, sorted by `a.service.registeredAt-b.service.registeredAt||a.index-b.index`. -/
def quotes (services : List MeasurementService) : List MeasurementService :=
  (services.zipIdx.insertionSort (indexOrder MeasurementService.registeredAt)).map Prod.fst

/-- `comparable(a,b)`; the amounts of registered services can be read. -/
def comparable (a b : MeasurementService) : Bool :=
  a.category = b.category && a.seller.toLowerCase = b.seller.toLowerCase &&
    a.unitHash.toLowerCase = b.unitHash.toLowerCase && a.quantity.value = b.quantity.value &&
    a.endpointHash.toLowerCase = b.endpointHash.toLowerCase

/-- `rows.at(-1)!`: a field of what is missing cannot be read. -/
def lastOf (rows : List MeasurementService) : Except JsError MeasurementService :=
  match rows.getLast? with
  | some s => .ok s
  | none => .error .other

section Basket

variable (quotes : List MeasurementService)

/-- `families`: the first quote of every category. -/
def families : List (Option MeasurementService) :=
  resourceCategories.map fun category => quotes.find? fun s => s.category = category

def missingCategories : List JsString :=
  resourceCategories.filter fun category => !quotes.any fun s => s.category = category

def complete : Bool := (missingCategories quotes).isEmpty

/-- `baselinePosition`, of a complete basket. -/
def baselinePosition : ℕ :=
  ((families quotes).filterMap fun family => family.map quotes.idxOf).foldl max 0

def baselineAt : Option ℚ :=
  if complete quotes then (quotes[baselinePosition quotes]?).map (·.registeredAt) else none

/-- `latest(family,until)` -/
def latest (family : MeasurementService) (time : ℚ) : Except JsError MeasurementService :=
  lastOf (quotes.filter fun s => comparable s family && s.registeredAt ≤ time)

/-- `latest(family,until,true)` -/
def latestBefore (family : MeasurementService) (time : ℚ) : Except JsError MeasurementService :=
  lastOf (quotes.filter fun s => comparable s family && s.registeredAt < time)

/-- `baseline`: the latest comparable quote up to the one that completes the basket. -/
def baseline (family : MeasurementService) : Option MeasurementService :=
  if complete quotes then
    ((quotes.take (baselinePosition quotes + 1)).filter fun s => comparable s family).getLast?
  else none

/-- The component of a family. -/
def component (asOf : ℚ) (family : MeasurementService) :
    Except JsError MeasurementPriceComponent := do
  let current ← latest quotes family asOf
  let quantity ← bigInt family.quantity
  let baselineAtomic ← (baseline quotes family).mapM fun s => bigInt s.unitPrice
  let currentAtomic ← bigInt current.unitPrice
  return {
    category := family.category
    weightBps := 2000
    familyServiceHash := family.serviceHash
    seller := family.seller.toLowerCase
    unitHash := family.unitHash
    quantity
    endpointHash := family.endpointHash
    baselineServiceHash := (baseline quotes family).map (·.serviceHash)
    baselineTransactionHash := (baseline quotes family).map (·.transactionHash)
    baselineAtomic
    baselineRegisteredAt := (baseline quotes family).map (·.registeredAt)
    currentServiceHash := current.serviceHash
    currentTransactionHash := current.transactionHash
    currentAtomic
    currentRegisteredAt := current.registeredAt }

/-- `components` -/
def components (asOf : ℚ) : Except JsError (List MeasurementPriceComponent) :=
  ((families quotes).filterMap id).mapM (component quotes asOf)

/-- One summand of `priceIndex`; dividing by zero is a `RangeError`. -/
def indexTerm (baselineAtomic : Option ℤ) (weightBps price : ℤ) : Except JsError ℤ :=
  match baselineAtomic with
  | none => .error .other
  | some n => if n = 0 then .error .other else .ok ((weightBps * price * bps).tdiv n)

/-- `priceIndex(current)` -/
def priceIndex (components : List MeasurementPriceComponent) (current : List ℤ) :
    Except JsError ℤ := do
  let terms ← (components.zip current).mapM fun p => indexTerm p.1.baselineAtomic p.1.weightBps p.2
  return terms.sum.tdiv bps

/-- A quote of a closed day. -/
def closedQuote (s : MeasurementService) (unitPriceAtomic : ℤ) : ClosedQuote where
  category := s.category
  serviceHash := s.serviceHash
  transactionHash := s.transactionHash
  unitPriceAtomic
  registeredAt := s.registeredAt

/-- `closedDay(end)` -/
def closedDay (components : List MeasurementPriceComponent) (endExclusive : ℚ) :
    Except JsError (Option MeasurementPriceSnapshot) := do
  let start := endExclusive - daySeconds
  match baselineAt quotes with
  | none => return none
  | some time =>
    if start < 0 || start ≤ time then return none
    else
      let selected ← ((families quotes).filterMap id).mapM fun family =>
        latestBefore quotes family endExclusive
      let unitPrices ← selected.mapM fun s => bigInt s.unitPrice
      let indexBps ← priceIndex components unitPrices
      return some {
        start
        endExclusive
        indexBps
        quotes := selected.zipWith closedQuote unitPrices }

end Basket

/-- A component, as the identity of the basket digests it. -/
def MeasurementPriceComponent.json (c : MeasurementPriceComponent) : Json :=
  .obj [(js "category", .str c.category), (js "weightBps", bigintJson c.weightBps),
    (js "familyServiceHash", .str c.familyServiceHash),
    (js "baselineServiceHash", orNull .str c.baselineServiceHash),
    (js "baselineAtomic", orNull bigintJson c.baselineAtomic)]

/-- `basketId` of a complete basket. -/
def basketDigest (baselineAt : Option ℚ) (components : List MeasurementPriceComponent) : Bytes32 :=
  digest H (.obj
    [(js "methodology", .str (js "equal-weight-five-category-registered-quotes-v1")),
      (js "baselineAt", orNull .num baselineAt),
      (js "components", .arr (components.map MeasurementPriceComponent.json))])

/-- The change from `before` to `after`, when there is a positive `before`. -/
def changeBps (after before : ℤ) : Option ℤ :=
  if 0 < before then some (((after - before) * bps).tdiv before) else none

/-- What one unit of a component buys. -/
def MeasurementPriceComponent.purchasingPower (c : MeasurementPriceComponent) : PurchasingPower where
  category := c.category
  serviceHash := c.currentServiceHash
  transactionHash := c.currentTransactionHash
  unitHash := c.unitHash
  quantity := c.quantity
  unitPriceAtomic := c.currentAtomic
  unitsPerUsdcMillionths := Int.tdiv 1000000000000 c.currentAtomic
  ordersPerUsdcMillionths := Int.tdiv 1000000000000 (c.currentAtomic * c.quantity)

/-- `indexBps` -/
def currentIndex (quotes : List MeasurementService) (components : List MeasurementPriceComponent) :
    Except JsError (Option ℤ) :=
  if complete quotes then (priceIndex components (components.map (·.currentAtomic))).map some
  else .ok none

/-- The prices of the sorted quotes. -/
def prices (quotes : List MeasurementService) (asOf : ℚ) : Except JsError Prices := do
  let todayStart := dayStart asOf
  let components ← components quotes asOf
  let indexBps ← currentIndex quotes components
  let priorClosedDay ← closedDay quotes components todayStart
  let precedingClosedDay ← closedDay quotes components (todayStart - daySeconds)
  return {
    basketId := if complete quotes then some (basketDigest H (baselineAt quotes) components) else none
    baselineAt := baselineAt quotes
    complete := complete quotes
    missingCategories := missingCategories quotes
    indexBps
    baselineChangeBps := indexBps.map fun n => n - bps
    components
    priorClosedDay
    precedingClosedDay
    periodInflationBps := priorClosedDay.bind fun prior => precedingClosedDay.bind fun preceding =>
      changeBps prior.indexBps preceding.indexBps
    changeSincePriorCloseBps := indexBps.bind fun n => priorClosedDay.bind fun prior =>
      changeBps n prior.indexBps
    purchasingPower := components.map MeasurementPriceComponent.purchasingPower }

/-! ### The measurements -/

/-- `part*bps/whole`, when there is a whole. -/
def shareBps (part whole : ℤ) : Option ℤ :=
  if 0 < whole then some ((part * bps).tdiv whole) else none

/-- `activity` -/
def activity (orders : List MeasurementSettlement) (activeAgents : List MeasurementAgent)
    (asOf todayStart fromTimestamp : ℚ) : Activity :=
  let activeIds := activeAgents.map (·.agentId)
  let fulfilled := unique ((orders.filter fun o =>
    activeIds.contains o.agentId &&
      match eventTime o .delivered, eventTime o .acknowledged with
      | some delivery, some ack =>
        decide (todayStart ≤ max delivery ack) && decide (max delivery ack ≤ asOf)
      | _, _ => false).map (·.agentId))
  let lifetimeFulfilled := unique ((orders.filter fun o =>
    activeIds.contains o.agentId && o.delivered && o.buyerAcknowledged &&
      decide ((eventTime o .delivered).getD fromTimestamp ≤ asOf) &&
      decide ((eventTime o .acknowledged).getD fromTimestamp ≤ asOf)).map (·.agentId))
  { start := todayStart
    endInclusive := asOf
    activeAgentCount := activeAgents.length
    fulfilledAgentCount := fulfilled.length
    utilizationBps := shareBps fulfilled.length activeAgents.length
    activeAgentIds := activeIds
    fulfilledAgentIds := fulfilled.insertionSort fun a b => a.le b = true
    lifetimeFulfilledAgentCount := lifetimeFulfilled.length }

/-- `capital`, of the balances of the active executors. -/
def capital (balances : List Balance) (today lifetime : MeasurementWindow) : Capital :=
  let missingExecutorAddresses :=
    (balances.filter fun b => b.balanceAtomic.isNone).map (·.address)
  let knownBalanceAtomic := (balances.map fun b => b.balanceAtomic.getD 0).sum
  let totalAtomic := if missingExecutorAddresses.isEmpty then some knownBalanceAtomic else none
  { complete := missingExecutorAddresses.isEmpty
    executorCount := balances.length
    totalAtomic
    knownBalanceAtomic
    missingExecutorAddresses
    balances
    todayTurnoverBps := totalAtomic.bind fun total => shareBps today.grossPaymentsAtomic total
    lifetimeTurnoverBps := totalAtomic.bind fun total => shareBps lifetime.grossPaymentsAtomic total }

/-- `calculateMeasurements(input)`, with `a.localeCompare(b)` as a parameter. -/
def calculateMeasurements (localeCompare : JsString → JsString → ℤ) (input : MeasurementInput) :
    Except JsError EconomyMeasurements := do
  if !validTime input.asOf || !validTime input.fromTimestamp || input.asOf < input.fromTimestamp ||
      !isDigits input.blockNumber || input.blockHash.isEmpty then
    JsError.raise "Invalid measurement snapshot."
  let todayStart := dayStart input.asOf
  let _ ← input.settlements.foldlM checkSettlement []
  let orders := input.settlements.filter fun o => o.asset = js "USDC" &&
    decide (input.fromTimestamp ≤ o.timestamp) && decide (o.timestamp ≤ input.asOf)
  input.refunds.forM checkRefund
  let refunds := input.refunds.filter fun r => (orders.map (·.orderId)).contains r.orderId &&
    decide (input.fromTimestamp ≤ r.timestamp) && decide (r.timestamp ≤ input.asOf)
  let today := window orders refunds input.asOf todayStart false
  let lifetime := window orders refunds input.asOf input.fromTimestamp true
  let agents ← input.agents.foldlM addAgent []
  let byId (agents : List MeasurementAgent) :=
    agents.insertionSort fun a b => localeCompare a.agentId b.agentId ≤ 0
  let activeAgents := byId (agents.filter (·.active))
  let activity := activity orders activeAgents input.asOf todayStart input.fromTimestamp
  let balanceMap ← input.balances.foldlM addBalance []
  let balances := ((unique (activeAgents.map (·.executor))).insertionSort
    fun a b => a.le b = true).map fun address => (⟨address, balanceOf balanceMap address⟩ : Balance)
  let registered ← input.services.foldlM (register H input.asOf) ⟨[], []⟩
  let quotes := quotes registered.services
  let prices ← prices H quotes input.asOf
  return {
    asOf := input.asOf
    blockNumber := input.blockNumber
    blockHash := input.blockHash
    today
    lifetime
    activity
    capital := capital balances today lifetime
    prices
    provenance := {
      blockNumber := input.blockNumber
      blockHash := input.blockHash
      asOf := input.asOf
      fromTimestamp := input.fromTimestamp
      inputHash := digest H (.obj [(js "settlements", .arr (orders.map (·.row))),
        (js "services", .arr (quotes.map (·.json))), (js "agents", .arr ((byId agents).map (·.json))),
        (js "balances", .arr (balances.map (·.json))), (js "asOf", .num input.asOf),
        (js "blockNumber", .str input.blockNumber), (js "blockHash", .str input.blockHash),
        (js "fromTimestamp", .num input.fromTimestamp), (js "refunds", .arr (refunds.map (·.row)))])
      orderIds := orders.map (·.orderId)
      settlementTransactionHashes := unique
        ((orders.filterMap (·.transactionHash)).filter fun hash => !hash.isEmpty)
      serviceHashes := quotes.map (·.serviceHash)
      serviceTransactionHashes := unique (quotes.map (·.transactionHash))
      refundSources := refunds
      missingDeliveryTimestampOrderIds :=
        (orders.filter fun o => o.delivered && (eventTime o .delivered).isNone).map (·.orderId)
      missingAcknowledgmentTimestampOrderIds := (orders.filter fun o =>
        o.buyerAcknowledged && (eventTime o .acknowledged).isNone).map (·.orderId) } }

end Measurements

end Obolos
