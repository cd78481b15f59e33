import Obolos.Economy.Measurements
import Mathlib.Data.List.Dedup

/-!
# Economic metrics of a window

`economy/metrics.ts`: the figures of the settlements of one asset in a window, and the index of a basket
of prices.  A figure about value is `null` unless every eligible order carries the evidence for it.

A `number` is an exact rational, and a `Set` is the list of its elements.  `null` and a missing field
are alike to this code.
-/

namespace Obolos

namespace Metrics

open Json Runs

/-- `EconomyAsset` -/
inductive EconomyAsset
  | USDC
  | HBAR
  deriving DecidableEq

/-- An asset, as the code writes it. -/
def EconomyAsset.text : EconomyAsset → JsString
  | .USDC => js "USDC"
  | .HBAR => js "HBAR"

/-- `PriceComponent` -/
structure PriceComponent where
  id : JsString
  category : JsString
  unit : JsString
  asset : EconomyAsset
  baselineAtomic : ℤ
  currentAtomic : Option ℤ
  weightBps : ℤ
  sourceReference : Option JsString

/-- What the metrics read of `EconomicSettlement`. -/
structure EconomicSettlement where
  orderId : JsString
  agentId : JsString
  asset : EconomyAsset
  quantity : ℤ
  principalAtomic : ℤ
  sellerAtomic : ℤ
  timestamp : ℚ
  delivered : Bool
  buyerAcknowledged : Bool
  sameOwner : Bool
  observedRevenueAtomic : Option ℤ
  verifiedFinalOutputAtomic : Option ℤ
  verifiedIntermediateInputAtomic : Option ℤ
  verifiedResourceCostAtomic : Option ℤ
  costEvidenceReference : Option JsString
  valuationReference : Option JsString

/-- `ArpiObservation`: `end` is a keyword of Lean. -/
structure ArpiObservation where
  methodology : JsString
  asset : EconomyAsset
  endTime : ℚ
  basketIdentity : JsString
  arpiBps : ℤ

/-- `MetricWindow` -/
structure MetricWindow where
  start : ℚ
  endTime : ℚ
  asset : EconomyAsset
  activeAgentIds : List JsString
  capitalAtomic : Option ℤ
  previousArpi : Option ArpiObservation

/-- One entry of `purchasingPower`. -/
structure ComponentPower where
  componentId : JsString
  unit : JsString
  tasksPerCurrencyMillionths : Option ℤ

/-- `EconomyMetrics` -/
structure EconomyMetrics where
  methodology : JsString
  asset : EconomyAsset
  start : ℚ
  endTime : ℚ
  basketIdentity : Option JsString
  arpiBps : Option ℤ
  inflationBps : Option ℤ
  baselineChangeBps : Option ℤ
  grossPaymentsAtomic : ℤ
  sellerRevenueAtomic : ℤ
  gapAtomic : Option ℤ
  surplusAtomic : Option ℤ
  productivityBps : Option ℤ
  moneyVelocityBps : Option ℤ
  paymentTurnoverBps : Option ℤ
  utilizationBps : Option ℤ
  purchasingPower : List ComponentPower
  settlementCount : ℕ
  valuedSettlementCount : ℕ
  excludedSelfPayments : ℕ
  limitations : List JsString

def bps : ℤ := 10000

def methodology : JsString := js "obolos-agentgdp-v2"

/-! ### The basket -/

/-- A component, as the identity of the basket has it. -/
def PriceComponent.json (p : PriceComponent) : Json :=
  .arr [.str p.id, .str p.category, .str p.unit, .str p.asset.text, .str (bigintText p.baselineAtomic),
    .str (bigintText p.weightBps), .str (p.sourceReference.getD p.id)]

/-- `basketIdentity(components)`, with `a.localeCompare(b)` and the texts of numbers as parameters. -/
def basketIdentity (numerals : Numerals) (localeCompare : JsString → JsString → ℤ)
    (components : List PriceComponent) : Option JsString :=
  if components.isEmpty then none
  else some ((Json.arr ((components.insertionSort fun a b => localeCompare a.id b.id ≤ 0).map
    PriceComponent.json)).stringify numerals)

/-- The checks of one component, after the earlier ones. -/
def checkComponent (ids : List JsString) (p : PriceComponent) : Except JsError (List JsString) :=
  if p.id ∈ ids || p.weightBps ≤ 0 || p.baselineAtomic ≤ 0 || p.currentAtomic.any fun n => n ≤ 0 then
    JsError.raise "Invalid price basket"
  else .ok (p.id :: ids)

/-- `arpiBps` -/
def arpi (components : List PriceComponent) : Option ℤ :=
  if !components.isEmpty && components.all fun p => p.currentAtomic.isSome then
    some ((components.map fun p =>
      (p.weightBps * p.currentAtomic.getD 0 * bps).tdiv p.baselineAtomic).sum.tdiv bps)
  else none

/-- What a unit of the currency buys of a component. -/
def PriceComponent.power (asset : EconomyAsset) (p : PriceComponent) : ComponentPower where
  componentId := p.id
  unit := p.unit
  tasksPerCurrencyMillionths := p.currentAtomic.bind fun n =>
    if n = 0 then none
    else some (((if asset = .USDC then 1000000 else 100000000) * 1000000 : ℤ).tdiv n)

/-! ### The settlements -/

/-- The checks of one settlement, after the earlier ones. -/
def checkEvent (seen : List JsString) (e : EconomicSettlement) : Except JsError (List JsString) :=
  if e.orderId ∈ seen then JsError.raise "Duplicate settlement"
  else if e.principalAtomic < 0 || e.sellerAtomic < 0 || e.principalAtomic < e.sellerAtomic ||
      e.quantity ≤ 0 then
    JsError.raise "Invalid settlement units"
  else .ok (e.orderId :: seen)

/-- A settlement of `selected`. -/
def EconomicSettlement.isSelected (window : MetricWindow) (e : EconomicSettlement) : Bool :=
  e.asset = window.asset && decide (window.start ≤ e.timestamp) && decide (e.timestamp < window.endTime)

/-- A text that is there and not empty. -/
def present (s : Option JsString) : Bool := s.any fun s => !s.isEmpty

/-- `hasCostEvidence(e)` -/
def EconomicSettlement.hasCostEvidence (e : EconomicSettlement) : Bool :=
  present (e.costEvidenceReference.or e.valuationReference)

/-- A settlement of `fulfilled`, among the eligible ones. -/
def EconomicSettlement.isFulfilled (e : EconomicSettlement) : Bool :=
  e.delivered && e.buyerAcknowledged

/-- A settlement of `gapValued`, among the fulfilled ones. -/
def EconomicSettlement.isGapValued (e : EconomicSettlement) : Bool :=
  e.hasCostEvidence && e.observedRevenueAtomic.isSome && e.verifiedIntermediateInputAtomic.isSome

/-- A settlement of `surplusValued`, among the fulfilled ones. -/
def EconomicSettlement.isSurplusValued (e : EconomicSettlement) : Bool :=
  e.hasCostEvidence && e.observedRevenueAtomic.isSome && e.verifiedResourceCostAtomic.isSome

/-- A settlement of `productivityValued`, among the fulfilled ones. -/
def EconomicSettlement.isProductivityValued (e : EconomicSettlement) : Bool :=
  present e.valuationReference && e.hasCostEvidence && e.verifiedFinalOutputAtomic.isSome &&
    e.verifiedResourceCostAtomic.isSome

/-- A negative amount of the valuation. -/
def EconomicSettlement.isNegative (e : EconomicSettlement) : Bool :=
  [e.observedRevenueAtomic, e.verifiedFinalOutputAtomic, e.verifiedIntermediateInputAtomic,
    e.verifiedResourceCostAtomic].any fun n => n.any fun n => n < 0

/-- The sum of an amount that every settlement has. -/
def total (amount : EconomicSettlement → Option ℤ) (events : List EconomicSettlement) : ℤ :=
  (events.map fun e => (amount e).getD 0).sum

/-- `complete?valued.reduce(…):null`, where `complete` is that all eligible orders are valued. -/
def totalOf (eligible valued : List EconomicSettlement) (amount : EconomicSettlement → Option ℤ) :
    Option ℤ :=
  if decide (0 < eligible.length) && valued.length == eligible.length then some (total amount valued)
  else none

/-- `comparablePrevious` -/
def comparablePrevious (window : MetricWindow) (identity : Option JsString) :
    Option ArpiObservation :=
  window.previousArpi.filter fun previous =>
    previous.methodology = methodology && previous.asset = window.asset &&
      decide (previous.endTime = window.start) && some previous.basketIdentity = identity &&
      decide (0 < previous.arpiBps)

/-- `limitations` -/
def limitations (gapComplete surplusComplete productivityComplete zeroCost noArpi noPrevious : Bool) :
    List JsString :=
  [js "Delivery and buyer acknowledgment do not independently prove real-world usefulness.",
    js "Known same-owner payments are excluded from value-added and utilization; undisclosed common control and circular trade may remain."] ++
  (if gapComplete then [] else
    [js "GAP requires explicit observed revenue and intermediate inputs for every eligible fulfilled order."]) ++
  (if surplusComplete then [] else
    [js "Surplus requires explicit observed revenue and all-resource cost for every eligible fulfilled order."]) ++
  (if productivityComplete then [] else
    [js "Productivity requires explicit verified output value and all-resource cost for every eligible fulfilled order."]) ++
  (if zeroCost then
    [if surplusComplete then
      js "Productivity is unavailable because attested total resource cost is zero; surplus remains defined."
    else js "Productivity is unavailable because attested total resource cost is zero."] else []) ++
  (if noArpi then
    [js "ARPI requires every fixed-basket component with comparable currency and unit prices."] else []) ++
  if noPrevious then
    [js "Period inflation requires the immediately preceding ARPI observation for the same asset, methodology and fixed basket."]
  else []

/-- The figures of the settlements in the window and the components of its asset. -/
def figures (numerals : Numerals) (localeCompare : JsString → JsString → ℤ)
    (selected : List EconomicSettlement) (components : List PriceComponent) (window : MetricWindow) :
    EconomyMetrics :=
  let identity := basketIdentity numerals localeCompare components
  let arpiBps := arpi components
  let eligible := selected.filter fun e => !e.sameOwner
  let fulfilled := eligible.filter (·.isFulfilled)
  let gapValued := fulfilled.filter (·.isGapValued)
  let surplusValued := fulfilled.filter (·.isSurplusValued)
  let productivityValued := fulfilled.filter (·.isProductivityValued)
  let gross := (selected.map (·.principalAtomic)).sum
  let gapRevenue := totalOf eligible gapValued (·.observedRevenueAtomic)
  let inputs := totalOf eligible gapValued (·.verifiedIntermediateInputAtomic)
  let surplusRevenue := totalOf eligible surplusValued (·.observedRevenueAtomic)
  let surplusCost := totalOf eligible surplusValued (·.verifiedResourceCostAtomic)
  let outputValue := totalOf eligible productivityValued (·.verifiedFinalOutputAtomic)
  let productivityCost := totalOf eligible productivityValued (·.verifiedResourceCostAtomic)
  let gap := gapRevenue.bind fun revenue => inputs.map fun inputs => revenue - inputs
  let surplus := surplusRevenue.bind fun revenue => surplusCost.map fun cost => revenue - cost
  let active := window.activeAgentIds.dedup
  let productive := ((fulfilled.filter fun e => active.contains e.agentId).map (·.agentId)).dedup
  let previous := comparablePrevious window identity
  { methodology
    asset := window.asset
    start := window.start
    endTime := window.endTime
    basketIdentity := identity
    arpiBps
    inflationBps := arpiBps.bind fun n => previous.map fun previous =>
      ((n - previous.arpiBps) * bps).tdiv previous.arpiBps
    baselineChangeBps := arpiBps.map fun n => n - bps
    grossPaymentsAtomic := gross
    sellerRevenueAtomic := (selected.map (·.sellerAtomic)).sum
    gapAtomic := gap
    surplusAtomic := surplus
    productivityBps := outputValue.bind fun value => productivityCost.bind fun cost =>
      Measurements.shareBps value cost
    moneyVelocityBps := gap.bind fun gap => window.capitalAtomic.bind fun capital =>
      Measurements.shareBps gap capital
    paymentTurnoverBps := window.capitalAtomic.bind fun capital => Measurements.shareBps gross capital
    utilizationBps := Measurements.shareBps productive.length active.length
    purchasingPower := components.map (PriceComponent.power window.asset)
    settlementCount := selected.length
    valuedSettlementCount := (fulfilled.filter fun e =>
      present e.valuationReference && e.verifiedFinalOutputAtomic.isSome).length
    excludedSelfPayments := selected.length - eligible.length
    limitations := limitations gapRevenue.isSome surplusRevenue.isSome outputValue.isSome
      (productivityCost = some 0) arpiBps.isNone previous.isNone }

/-- `calculateEconomyMetrics(events,basket,window)` -/
def calculateEconomyMetrics (numerals : Numerals) (localeCompare : JsString → JsString → ℤ)
    (events : List EconomicSettlement) (basket : List PriceComponent) (window : MetricWindow) :
    Except JsError EconomyMetrics := do
  if !isSafeInteger window.start || !isSafeInteger window.endTime ||
      window.endTime ≤ window.start then
    JsError.raise "Invalid metric window"
  let _ ← events.foldlM checkEvent []
  let components := basket.filter fun p => p.asset = window.asset
  let _ ← components.foldlM checkComponent []
  if !components.isEmpty && (components.map (·.weightBps)).sum ≠ bps then
    JsError.raise "Price basket weights must sum to 10000"
  let selected := events.filter (·.isSelected window)
  if (selected.filter fun e => !e.sameOwner).any (·.isNegative) then
    JsError.raise "Invalid economic valuation"
  if window.capitalAtomic.any fun n => n < 0 then
    JsError.raise "Invalid capital observation"
  return figures numerals localeCompare selected components window

end Metrics

end Obolos
