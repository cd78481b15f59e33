import Obolos.Economy.Metrics
import Obolos.Js.Loops
import Obolos.Numeric.WeightedIndex
import Mathlib.Data.List.Perm.Basic
import Mathlib.Tactic.Linarith

/-!
# Laws of the economic metrics

An accepted call returns the figures of the settlements in its window (`calculateEconomyMetrics_iff`).
So the figures do not depend on the order of the settlements, those of a window are the sums of
those of its parts, and the figures about value depend on the eligible settlements only
(`metrics_laws`).
-/

namespace Obolos

namespace Metrics

open Json Runs

variable {numerals : Numerals} {localeCompare : JsString → JsString → ℤ}
  {events events' selected eligible : List EconomicSettlement} {basket : List PriceComponent}
  {window : MetricWindow} {r r' : EconomyMetrics} {e : EconomicSettlement}

/-- The units of a settlement are valid. -/
def EconomicSettlement.ValidUnits (e : EconomicSettlement) : Prop :=
  0 ≤ e.principalAtomic ∧ 0 ≤ e.sellerAtomic ∧ e.sellerAtomic ≤ e.principalAtomic ∧ 0 < e.quantity

/-- Settlements of different orders with valid units. -/
def ValidSettlements (events : List EconomicSettlement) : Prop :=
  (∀ e ∈ events, e.ValidUnits) ∧ (events.map (·.orderId)).Nodup

/-- The weight and the prices of a component are valid. -/
def PriceComponent.ValidPrices (p : PriceComponent) : Prop :=
  0 < p.weightBps ∧ 0 < p.baselineAtomic ∧ ∀ n ∈ p.currentAtomic, 0 < n

/-- The components of an asset. -/
def componentsOf (asset : EconomyAsset) (basket : List PriceComponent) : List PriceComponent :=
  basket.filter fun p => p.asset = asset

/-- The basket of an asset. -/
structure ValidBasket (asset : EconomyAsset) (basket : List PriceComponent) : Prop where
  prices : ∀ p ∈ componentsOf asset basket, p.ValidPrices
  ids : ((componentsOf asset basket).map (·.id)).Nodup
  weights : componentsOf asset basket = [] ∨
    ((componentsOf asset basket).map (·.weightBps)).sum = bps

/-- A window that can be measured. -/
structure ValidWindow (window : MetricWindow) : Prop where
  start : isSafeInteger window.start = true
  endTime : isSafeInteger window.endTime = true
  lt : window.start < window.endTime
  capital : ∀ n ∈ window.capitalAtomic, 0 ≤ n

/-- A settlement of `eligible`. -/
def EconomicSettlement.isEligible (window : MetricWindow) (e : EconomicSettlement) : Bool :=
  e.isSelected window && !e.sameOwner

/-- The call does not throw. -/
structure Accepted (events : List EconomicSettlement) (basket : List PriceComponent)
    (window : MetricWindow) : Prop where
  validWindow : ValidWindow window
  validSettlements : ValidSettlements events
  validBasket : ValidBasket window.asset basket
  valuations : ∀ e ∈ events, e.isEligible window = true → e.isNegative = false

theorem checks_events :
    Loops.Checks (·.orderId) EconomicSettlement.ValidUnits checkEvent := by
  intro seen e seen'
  have hunits : ¬(e.principalAtomic < 0 || e.sellerAtomic < 0 || e.principalAtomic < e.sellerAtomic ||
      e.quantity ≤ 0) = true ↔ e.ValidUnits := by
    simp only [Bool.or_eq_true, decide_eq_true_eq, EconomicSettlement.ValidUnits]
    omega
  rw [checkEvent, JsError.raise, JsError.raise]
  by_cases hseen : e.orderId ∈ seen
  · simp [hseen]
  · rw [if_neg hseen, Loops.refuse_eq_ok, hunits]
    exact ⟨fun h => ⟨hseen, h⟩, fun h => h.2⟩

theorem checks_components :
    Loops.Checks (·.id) PriceComponent.ValidPrices checkComponent := by
  intro ids p ids'
  have hprices : ¬(p.id ∈ ids || p.weightBps ≤ 0 || p.baselineAtomic ≤ 0 ||
      p.currentAtomic.any fun n => n ≤ 0) = true ↔ p.id ∉ ids ∧ p.ValidPrices := by
    cases hcurrent : p.currentAtomic <;>
      simp [PriceComponent.ValidPrices, hcurrent, not_or, and_assoc]
  rw [checkComponent, JsError.raise, Loops.refuse_eq_ok, hprices, and_assoc]

/-- The call returns the figures of the settlements of the window. -/
theorem calculateEconomyMetrics_iff :
    calculateEconomyMetrics numerals localeCompare events basket window = .ok r ↔
      Accepted events basket window ∧ r = figures numerals localeCompare
        (events.filter (·.isSelected window)) (componentsOf window.asset basket) window := by
  have hsettlements := checks_events.checks_iff events
  have hcomponents := checks_components.checks_iff (componentsOf window.asset basket)
  have hwindow : ¬(!isSafeInteger window.start || !isSafeInteger window.endTime ||
      window.endTime ≤ window.start) = true ∧ ¬(window.capitalAtomic.any fun n => n < 0) = true ↔
      ValidWindow window := by
    constructor
    · intro h
      constructor <;> cases hcapital : window.capitalAtomic <;>
        simp_all [not_or]
    · rintro ⟨hstart, hend, hlt, hcapital⟩
      cases h : window.capitalAtomic <;> simp_all
  have hweights : ¬(!(componentsOf window.asset basket).isEmpty &&
      ((componentsOf window.asset basket).map (·.weightBps)).sum ≠ bps) = true ↔
      componentsOf window.asset basket = [] ∨
        ((componentsOf window.asset basket).map (·.weightBps)).sum = bps := by
    simp [imp_iff_not_or]
  have hvaluations : ¬((events.filter (·.isSelected window)).filter fun e => !e.sameOwner).any
      (·.isNegative) = true ↔ ∀ e ∈ events, e.isEligible window = true → e.isNegative = false := by
    simp only [List.any_eq_true, List.mem_filter, EconomicSettlement.isEligible, Bool.and_eq_true,
      Bool.not_eq_true', not_exists, not_and, and_imp, Bool.not_eq_true]
  simp only [calculateEconomyMetrics, JsError.raise, JsError.throwIf_eq_ok, bind_eq_ok, pure_eq_ok]
  constructor
  · rintro ⟨hguard, seen, hevents, ids, hbasket, hsum, hnegative, hcapital, rfl⟩
    obtain ⟨hprices, hids⟩ := hcomponents.1 ⟨ids, hbasket⟩
    exact ⟨⟨hwindow.1 ⟨hguard, hcapital⟩, hsettlements.1 ⟨seen, hevents⟩,
      ⟨hprices, hids, hweights.1 hsum⟩, hvaluations.1 hnegative⟩, rfl⟩
  · rintro ⟨⟨hvalid, hevents, hbasket, hnegative⟩, rfl⟩
    obtain ⟨hguard, hcapital⟩ := hwindow.2 hvalid
    obtain ⟨seen, hseen⟩ := hsettlements.2 hevents
    obtain ⟨ids, hids⟩ := hcomponents.2 ⟨hbasket.prices, hbasket.ids⟩
    exact ⟨hguard, seen, hseen, ids, hids, hweights.2 hbasket.weights, hvaluations.2 hnegative,
      hcapital, rfl⟩

/-! ### Figures about value -/

/-- The settlements of some that are fulfilled and carry evidence. -/
def valuedBy (evidence : EconomicSettlement → Bool) (eligible : List EconomicSettlement) :
    List EconomicSettlement :=
  (eligible.filter (·.isFulfilled)).filter evidence

/-- All of some settlements are fulfilled and carry evidence, and there is one. -/
def Complete (evidence : EconomicSettlement → Bool) (eligible : List EconomicSettlement) : Prop :=
  eligible ≠ [] ∧ ∀ e ∈ eligible, e.isFulfilled = true ∧ evidence e = true

instance (evidence : EconomicSettlement → Bool) (eligible : List EconomicSettlement) :
    Decidable (Complete evidence eligible) := inferInstanceAs (Decidable (_ ∧ _))

variable {evidence : EconomicSettlement → Bool} {plus minus : EconomicSettlement → Option ℤ}

theorem totalOf_valued (evidence : EconomicSettlement → Bool)
    (amount : EconomicSettlement → Option ℤ) (eligible : List EconomicSettlement) :
    totalOf eligible (valuedBy evidence eligible) amount =
      if Complete evidence eligible then some (total amount eligible) else none := by
  have hlength : (valuedBy evidence eligible).length = eligible.length ↔
      ∀ e ∈ eligible, e.isFulfilled = true ∧ evidence e = true := by
    rw [valuedBy, List.filter_filter, List.length_filter_eq_length_iff]
    simp [and_comm]
  have hguard : (decide (0 < eligible.length) &&
      (valuedBy evidence eligible).length == eligible.length) = true ↔
      Complete evidence eligible := by
    rw [Bool.and_eq_true, decide_eq_true_eq, beq_iff_eq, hlength, List.length_pos_iff]
    rfl
  rw [totalOf]
  by_cases hcomplete : Complete evidence eligible
  · have hall : valuedBy evidence eligible = eligible := by
      rw [valuedBy, List.filter_filter, List.filter_eq_self]
      intro e he
      rw [(hcomplete.2 e he).1, (hcomplete.2 e he).2]
      rfl
    rw [if_pos (hguard.2 hcomplete), if_pos hcomplete, hall]
  · rw [if_neg fun h => hcomplete (hguard.1 h), if_neg hcomplete]

/-- The difference of two totals, when all settlements carry the evidence for them. -/
def difference (evidence : EconomicSettlement → Bool) (plus minus : EconomicSettlement → Option ℤ)
    (eligible : List EconomicSettlement) : Option ℤ :=
  if Complete evidence eligible then
    some (eligible.map fun e => (plus e).getD 0 - (minus e).getD 0).sum
  else none

theorem total_sub (eligible : List EconomicSettlement) : total plus eligible - total minus eligible =
    (eligible.map fun e => (plus e).getD 0 - (minus e).getD 0).sum := by
  induction eligible with
  | nil => rfl
  | cons e eligible ih =>
    rw [List.map_cons, List.sum_cons, ← ih, total, total, total, total, List.map_cons, List.map_cons,
      List.sum_cons, List.sum_cons]
    omega

theorem difference_eq (eligible : List EconomicSettlement) :
    ((totalOf eligible (valuedBy evidence eligible) plus).bind fun a =>
      (totalOf eligible (valuedBy evidence eligible) minus).map fun b => a - b) =
        difference evidence plus minus eligible := by
  rw [totalOf_valued, totalOf_valued, difference]
  by_cases h : Complete evidence eligible
  · rw [if_pos h, if_pos h, if_pos h, ← total_sub]
    rfl
  · rw [if_neg h, if_neg h, if_neg h]
    rfl

/-- `gapAtomic` -/
theorem figures_gap {components : List PriceComponent} :
    (figures numerals localeCompare selected components window).gapAtomic =
      difference (·.isGapValued) (·.observedRevenueAtomic) (·.verifiedIntermediateInputAtomic)
        (selected.filter fun e => !e.sameOwner) :=
  difference_eq _

/-- `surplusAtomic` -/
theorem figures_surplus {components : List PriceComponent} :
    (figures numerals localeCompare selected components window).surplusAtomic =
      difference (·.isSurplusValued) (·.observedRevenueAtomic) (·.verifiedResourceCostAtomic)
        (selected.filter fun e => !e.sameOwner) :=
  difference_eq _

theorem difference_isSome : (difference evidence plus minus eligible).isSome = true ↔
    Complete evidence eligible := by
  rw [difference]
  split_ifs with h <;> simp [h]

theorem Complete.perm {l m : List EconomicSettlement} (h : l.Perm m) :
    Complete evidence l ↔ Complete evidence m := by
  simp only [Complete, ne_eq, h.mem_iff, ← List.length_eq_zero_iff, h.length_eq]

theorem difference_perm {l m : List EconomicSettlement} (h : l.Perm m) :
    difference evidence plus minus l = difference evidence plus minus m := by
  simp only [difference, Complete.perm h, (h.map _).sum_eq]

/-- The differences of two parts that are both complete. -/
theorem difference_append {l m : List EconomicSettlement} {a b : ℤ}
    (hl : difference evidence plus minus l = some a)
    (hm : difference evidence plus minus m = some b) :
    difference evidence plus minus (l ++ m) = some (a + b) := by
  rw [difference] at hl hm
  split_ifs at hl with hcl
  split_ifs at hm with hcm
  have hcomplete : Complete evidence (l ++ m) := by
    refine ⟨List.append_ne_nil_of_left_ne_nil hcl.1 m, fun e he => ?_⟩
    rcases List.mem_append.1 he with he | he
    · exact hcl.2 e he
    · exact hcm.2 e he
  rw [difference, if_pos hcomplete, List.map_append, List.sum_append, Option.some_inj.1 hl,
    Option.some_inj.1 hm]

/-! ### Order, and what is not eligible -/

theorem totalOf_perm {l m v w : List EconomicSettlement} (h : l.Perm m) (hv : v.Perm w)
    (amount : EconomicSettlement → Option ℤ) : totalOf l v amount = totalOf m w amount := by
  simp only [totalOf, total, h.length_eq, hv.length_eq, (hv.map _).sum_eq]

/-- The figures do not depend on the order of the settlements. -/
theorem figures_perm {selected' : List EconomicSettlement} (h : selected.Perm selected')
    (components : List PriceComponent) :
    figures numerals localeCompare selected components window =
      figures numerals localeCompare selected' components window := by
  have heligible := h.filter fun e => !e.sameOwner
  have hfulfilled := heligible.filter (·.isFulfilled)
  have hproductive := ((hfulfilled.filter fun e =>
    window.activeAgentIds.dedup.contains e.agentId).map (·.agentId)).dedup
  simp only [figures, totalOf_perm heligible (hfulfilled.filter _), (h.map _).sum_eq, h.length_eq,
    heligible.length_eq, hproductive.length_eq, (hfulfilled.filter _).length_eq]

/-- The figures about value are those of the eligible settlements. -/
theorem figures_eligible {selected' : List EconomicSettlement}
    (h : (selected.filter fun e => !e.sameOwner).Perm (selected'.filter fun e => !e.sameOwner))
    (components : List PriceComponent) :
    let r := figures numerals localeCompare selected components window
    let r' := figures numerals localeCompare selected' components window
    r.gapAtomic = r'.gapAtomic ∧ r.surplusAtomic = r'.surplusAtomic ∧
      r.productivityBps = r'.productivityBps ∧ r.utilizationBps = r'.utilizationBps := by
  have hfulfilled := h.filter (·.isFulfilled)
  have hproductive := ((hfulfilled.filter fun e =>
    window.activeAgentIds.dedup.contains e.agentId).map (·.agentId)).dedup
  simp only [figures, totalOf_perm h (hfulfilled.filter _), hproductive.length_eq, and_self]

/-! ### Windows -/

theorem eligible_eq (window : MetricWindow) (events : List EconomicSettlement) :
    (events.filter (·.isSelected window)).filter (fun e => !e.sameOwner) =
      events.filter (·.isEligible window) := by
  rw [List.filter_filter]
  refine List.filter_congr fun e _ => ?_
  rw [EconomicSettlement.isEligible, Bool.and_comm]

/-- Two windows for one asset that follow each other. -/
structure Parts (window first second : MetricWindow) : Prop where
  assets : first.asset = window.asset ∧ second.asset = window.asset
  start : first.start = window.start
  middle : first.endTime = second.start
  endTime : second.endTime = window.endTime
  first_lt : first.start < first.endTime
  second_lt : second.start < second.endTime

variable {first second : MetricWindow}

/-- Every settlement of a window is in exactly one of its parts. -/
theorem Parts.perm (h : Parts window first second) (events : List EconomicSettlement) :
    (events.filter (·.isSelected first) ++ events.filter (·.isSelected second)).Perm
      (events.filter (·.isSelected window)) := by
  have hlt := h.first_lt
  have hlt' := h.second_lt
  obtain ⟨⟨hasset, hasset'⟩, hstart, hmiddle, hend, -, -⟩ := h
  have hsplit := List.filter_append_perm (fun e : EconomicSettlement =>
    decide (e.timestamp < first.endTime)) (events.filter (·.isSelected window))
  rw [List.filter_filter, List.filter_filter] at hsplit
  have hfirst : events.filter (·.isSelected first) = events.filter fun e =>
      decide (e.timestamp < first.endTime) && e.isSelected window := by
    refine List.filter_congr fun e _ => ?_
    rw [Bool.eq_iff_iff]
    simp only [EconomicSettlement.isSelected, Bool.and_eq_true, decide_eq_true_eq, hasset, hstart]
    constructor
    · rintro ⟨⟨he, hlow⟩, hhigh⟩
      exact ⟨hhigh, ⟨he, hlow⟩, by linarith⟩
    · rintro ⟨hhigh, ⟨he, hlow⟩, -⟩
      exact ⟨⟨he, hlow⟩, hhigh⟩
  have hsecond : events.filter (·.isSelected second) = events.filter fun e =>
      (!decide (e.timestamp < first.endTime)) && e.isSelected window := by
    refine List.filter_congr fun e _ => ?_
    rw [Bool.eq_iff_iff]
    simp only [EconomicSettlement.isSelected, Bool.and_eq_true, decide_eq_true_eq, hasset', hend,
      Bool.not_eq_true', decide_eq_false_iff_not, not_lt, hmiddle]
    constructor
    · rintro ⟨⟨he, hlow⟩, hhigh⟩
      exact ⟨hlow, ⟨he, by linarith⟩, hhigh⟩
    · rintro ⟨hlow, ⟨he, -⟩, hhigh⟩
      exact ⟨⟨he, hlow⟩, hhigh⟩
  rw [hfirst, hsecond]
  exact hsplit

/-- The figures of a window and of its parts. -/
theorem Parts.figures {components components₁ components₂ : List PriceComponent}
    (h : Parts window first second) (events : List EconomicSettlement) :
    let r := Metrics.figures numerals localeCompare (events.filter (·.isSelected window)) components window
    let r₁ := Metrics.figures numerals localeCompare (events.filter (·.isSelected first)) components₁ first
    let r₂ := Metrics.figures numerals localeCompare (events.filter (·.isSelected second)) components₂ second
    r.grossPaymentsAtomic = r₁.grossPaymentsAtomic + r₂.grossPaymentsAtomic ∧
      r.sellerRevenueAtomic = r₁.sellerRevenueAtomic + r₂.sellerRevenueAtomic ∧
      r.settlementCount = r₁.settlementCount + r₂.settlementCount ∧
      r.excludedSelfPayments = r₁.excludedSelfPayments + r₂.excludedSelfPayments ∧
      (∀ a b, r₁.gapAtomic = some a → r₂.gapAtomic = some b → r.gapAtomic = some (a + b)) ∧
      ∀ a b, r₁.surplusAtomic = some a → r₂.surplusAtomic = some b →
        r.surplusAtomic = some (a + b) := by
  have hperm := h.perm events
  have heligible := hperm.filter fun e => !e.sameOwner
  rw [List.filter_append] at heligible
  have hselected := hperm.length_eq
  have hcount := heligible.length_eq
  rw [List.length_append] at hselected hcount
  refine ⟨?_, ?_, hselected.symm, ?_, fun a b ha hb => ?_, fun a b ha hb => ?_⟩
  · have hsum := (hperm.map (·.principalAtomic)).sum_eq
    rw [List.map_append, List.sum_append] at hsum
    exact hsum.symm
  · have hsum := (hperm.map (·.sellerAtomic)).sum_eq
    rw [List.map_append, List.sum_append] at hsum
    exact hsum.symm
  · have hfirst := List.length_filter_le (fun e => !e.sameOwner) (events.filter (·.isSelected first))
    have hsecond := List.length_filter_le (fun e => !e.sameOwner) (events.filter (·.isSelected second))
    simp only [Metrics.figures]
    omega
  · rw [figures_gap] at ha hb ⊢
    rw [← difference_perm heligible]
    exact difference_append ha hb
  · rw [figures_surplus] at ha hb ⊢
    rw [← difference_perm heligible]
    exact difference_append ha hb

/-- A part of a window that was accepted is accepted. -/
theorem Accepted.part {part : MetricWindow} (h : Accepted events basket window)
    (hpart : ValidWindow part) (hasset : part.asset = window.asset)
    (hstart : window.start ≤ part.start) (hend : part.endTime ≤ window.endTime) :
    Accepted events basket part where
  validWindow := hpart
  validSettlements := h.validSettlements
  validBasket := hasset ▸ h.validBasket
  valuations := by
    intro e he heligible
    refine h.valuations e he ?_
    simp only [EconomicSettlement.isEligible, EconomicSettlement.isSelected, Bool.and_eq_true,
      decide_eq_true_eq, hasset] at heligible ⊢
    obtain ⟨⟨⟨heq, hlow⟩, hhigh⟩, howner⟩ := heligible
    exact ⟨⟨⟨heq, by linarith⟩, by linarith⟩, howner⟩

theorem difference_some {n : ℤ} (h : difference evidence plus minus eligible = some n) :
    n = (eligible.map fun e => (plus e).getD 0 - (minus e).getD 0).sum := by
  rw [difference] at h
  split_ifs at h
  exact (Option.some_inj.1 h).symm

/-- A complete list of eligible settlements, for the settlements of a call. -/
theorem complete_iff (events : List EconomicSettlement) :
    Complete evidence (events.filter (·.isEligible window)) ↔
      (∃ e ∈ events, e.isEligible window = true) ∧
        ∀ e ∈ events, e.isEligible window = true → e.isFulfilled = true ∧ evidence e = true := by
  rw [Complete, ne_eq, List.filter_eq_nil_iff]
  simp only [List.mem_filter, and_imp, not_forall, not_not, exists_prop]

/-- What the figures `r` of a call say about its settlements and about other calls. -/
structure Laws (numerals : Numerals) (localeCompare : JsString → JsString → ℤ)
    (events : List EconomicSettlement) (basket : List PriceComponent) (window : MetricWindow)
    (r : EconomyMetrics) : Prop where
  /-- The order of the settlements does not matter. -/
  order : ∀ events', events.Perm events' →
    calculateEconomyMetrics numerals localeCompare events' basket window = .ok r
  /-- The figures are the sums of those of two windows that follow each other. -/
  parts : ∀ basket₁ basket₂ first second r₁ r₂, Parts window first second →
    calculateEconomyMetrics numerals localeCompare events basket₁ first = .ok r₁ →
    calculateEconomyMetrics numerals localeCompare events basket₂ second = .ok r₂ →
    r.grossPaymentsAtomic = r₁.grossPaymentsAtomic + r₂.grossPaymentsAtomic ∧
    r.sellerRevenueAtomic = r₁.sellerRevenueAtomic + r₂.sellerRevenueAtomic ∧
    r.settlementCount = r₁.settlementCount + r₂.settlementCount ∧
    r.excludedSelfPayments = r₁.excludedSelfPayments + r₂.excludedSelfPayments ∧
    (∀ a b, r₁.gapAtomic = some a → r₂.gapAtomic = some b → r.gapAtomic = some (a + b)) ∧
    ∀ a b, r₁.surplusAtomic = some a → r₂.surplusAtomic = some b → r.surplusAtomic = some (a + b)
  /-- Both parts of the window are accepted. -/
  accepted : ∀ time, isSafeInteger time = true → window.start < time → time < window.endTime →
    (∃ r₁, calculateEconomyMetrics numerals localeCompare events basket
      { window with endTime := time } = .ok r₁) ∧
    ∃ r₂, calculateEconomyMetrics numerals localeCompare events basket
      { window with start := time } = .ok r₂
  /-- Settlements that are not eligible do not change the figures about value. -/
  ineligible : ∀ events', ValidSettlements events' →
    (events'.filter (·.isEligible window)).Perm (events.filter (·.isEligible window)) →
    ∃ r', calculateEconomyMetrics numerals localeCompare events' basket window = .ok r' ∧
      r'.gapAtomic = r.gapAtomic ∧ r'.surplusAtomic = r.surplusAtomic ∧
      r'.productivityBps = r.productivityBps ∧ r'.utilizationBps = r.utilizationBps
  /-- Every eligible order is delivered, acknowledged and carries the evidence. -/
  gap_isSome : r.gapAtomic.isSome = true ↔ (∃ e ∈ events, e.isEligible window = true) ∧
    ∀ e ∈ events, e.isEligible window = true → e.isFulfilled = true ∧ e.isGapValued = true
  gap_eq : ∀ n, r.gapAtomic = some n → n = ((events.filter (·.isEligible window)).map fun e =>
    e.observedRevenueAtomic.getD 0 - e.verifiedIntermediateInputAtomic.getD 0).sum
  surplus_isSome : r.surplusAtomic.isSome = true ↔ (∃ e ∈ events, e.isEligible window = true) ∧
    ∀ e ∈ events, e.isEligible window = true → e.isFulfilled = true ∧ e.isSurplusValued = true
  surplus_eq : ∀ n, r.surplusAtomic = some n →
    n = ((events.filter (·.isEligible window)).map fun e =>
      e.observedRevenueAtomic.getD 0 - e.verifiedResourceCostAtomic.getD 0).sum

/-- The laws hold of every call that is accepted. -/
theorem metrics_laws
    (h : calculateEconomyMetrics numerals localeCompare events basket window = .ok r) :
    Laws numerals localeCompare events basket window r := by
  obtain ⟨haccepted, rfl⟩ := calculateEconomyMetrics_iff.1 h
  refine ⟨fun events' hperm => ?_, fun basket₁ basket₂ first second r₁ r₂ hparts h₁ h₂ => ?_,
    fun time hsafe hlow hhigh => ⟨?_, ?_⟩, fun events' hevents heligible => ?_, ?_, fun n hn => ?_,
    ?_, fun n hn => ?_⟩
  · rw [calculateEconomyMetrics_iff]
    refine ⟨⟨haccepted.validWindow, ⟨fun e he => ?_, ?_⟩, haccepted.validBasket, fun e he => ?_⟩,
      figures_perm (hperm.filter _) _⟩
    · exact haccepted.validSettlements.1 e (hperm.mem_iff.2 he)
    · exact (hperm.map _).nodup_iff.1 haccepted.validSettlements.2
    · exact haccepted.valuations e (hperm.mem_iff.2 he)
  · rw [(calculateEconomyMetrics_iff.1 h₁).2, (calculateEconomyMetrics_iff.1 h₂).2]
    exact hparts.figures events
  · have hvalid := haccepted.validWindow
    exact ⟨_, calculateEconomyMetrics_iff.2
      ⟨haccepted.part ⟨hvalid.start, hsafe, hlow, hvalid.capital⟩ rfl le_rfl hhigh.le, rfl⟩⟩
  · have hvalid := haccepted.validWindow
    exact ⟨_, calculateEconomyMetrics_iff.2
      ⟨haccepted.part ⟨hsafe, hvalid.endTime, hhigh, hvalid.capital⟩ rfl hlow.le le_rfl, rfl⟩⟩
  · have haccepted' : Accepted events' basket window := by
      refine ⟨haccepted.validWindow, hevents, haccepted.validBasket, fun e he hmem => ?_⟩
      obtain ⟨he, hmem⟩ := List.mem_filter.1 (heligible.mem_iff.1 (List.mem_filter.2 ⟨he, hmem⟩))
      exact haccepted.valuations e he hmem
    exact ⟨_, calculateEconomyMetrics_iff.2 ⟨haccepted', rfl⟩,
      figures_eligible (by rwa [eligible_eq, eligible_eq]) _⟩
  · rw [figures_gap, eligible_eq, difference_isSome, complete_iff]
  · rw [figures_gap, eligible_eq] at hn
    exact difference_some hn
  · rw [figures_surplus, eligible_eq, difference_isSome, complete_iff]
  · rw [figures_surplus, eligible_eq] at hn
    exact difference_some hn

namespace Sample

/-- An order with a valuation. -/
def order : EconomicSettlement where
  orderId := js "one"
  agentId := js "agent"
  asset := .USDC
  quantity := 1
  principalAtomic := 60
  sellerAtomic := 57
  timestamp := 15
  delivered := true
  buyerAcknowledged := true
  sameOwner := false
  observedRevenueAtomic := some 57
  verifiedFinalOutputAtomic := some 100
  verifiedIntermediateInputAtomic := some 20
  verifiedResourceCostAtomic := some 60
  costEvidenceReference := none
  valuationReference := some (js "attestation:1")

/-- An order of the agent that is paid later and observed at another value. -/
def later : EconomicSettlement :=
  { order with
    orderId := js "two"
    timestamp := 17
    observedRevenueAtomic := some 63 }

/-- Two orders of two parties, and one that the agent placed itself. -/
def orders : List EconomicSettlement :=
  [later, order, { order with orderId := js "three", sameOwner := true }]

/-- A window with the orders in it. -/
def seconds : MetricWindow where
  start := 10
  endTime := 20
  asset := .USDC
  activeAgentIds := [js "agent"]
  capitalAtomic := some 100
  previousArpi := none

/-- The seconds before the later order. -/
def earlySeconds : MetricWindow :=
  { seconds with endTime := 16 }

/-- The other seconds. -/
def lateSeconds : MetricWindow :=
  { seconds with start := 16 }

/-- A basket of two components: one price rose by a fifth, the other fell by a quarter. -/
def prices : List PriceComponent :=
  [⟨js "check", js "verification", js "report", .USDC, 50, some 60, 6000, none⟩,
    ⟨js "read", js "data", js "row", .USDC, 40, some 30, 4000, none⟩]

theorem accepted : Accepted orders prices seconds where
  validWindow := ⟨by decide +kernel, by decide +kernel, by decide +kernel, by decide +kernel⟩
  validSettlements := ⟨by simp [EconomicSettlement.ValidUnits, orders, later, order], by decide⟩
  validBasket := by
    refine ⟨?_, by decide, by decide⟩
    simp [componentsOf, prices, seconds, PriceComponent.ValidPrices]
  valuations := by
    intro e he _
    simp only [orders, List.mem_cons, List.not_mem_nil, or_false] at he
    obtain rfl | rfl | rfl := he <;> rfl

theorem parts : Parts seconds earlySeconds lateSeconds where
  assets := ⟨rfl, rfl⟩
  start := rfl
  middle := rfl
  endTime := rfl
  first_lt := by decide
  second_lt := by decide

end Sample

/-- The laws of a window with three orders, whose gap is the sum of the gaps of its parts. -/
theorem metrics_laws_orders : ∃ r,
    calculateEconomyMetrics .plain (fun _ _ => 0) Sample.orders Sample.prices Sample.seconds = .ok r ∧
      Laws .plain (fun _ _ => 0) Sample.orders Sample.prices Sample.seconds r ∧
      r.settlementCount = 3 ∧ r.gapAtomic = some (37 + 43) := by
  have hr : calculateEconomyMetrics .plain (fun _ _ => 0) Sample.orders Sample.prices
      Sample.seconds = .ok _ := calculateEconomyMetrics_iff.2 ⟨Sample.accepted, rfl⟩
  have hlaws := metrics_laws hr
  have hsafe : isSafeInteger 16 = true := by decide +kernel
  obtain ⟨⟨r₁, h₁⟩, r₂, h₂⟩ := hlaws.accepted 16 hsafe (by decide) (by decide)
  have hfirst := (calculateEconomyMetrics_iff.1 h₁).2
  have hsecond := (calculateEconomyMetrics_iff.1 h₂).2
  obtain ⟨-, -, hcount, -, hgap, -⟩ := hlaws.parts _ _ _ _ r₁ r₂ Sample.parts h₁ h₂
  refine ⟨_, hr, hlaws, ?_, hgap 37 43 ?_ ?_⟩
  · rw [hcount, hfirst, hsecond]
    rfl
  · rw [hfirst]
    rfl
  · rw [hsecond]
    rfl

end Metrics

end Obolos
