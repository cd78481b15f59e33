import Obolos.Economy.MetricLaws
import Obolos.Economy.PriceHistory

/-!
# Laws of the price indices

The index of `calculateEconomyMetrics` and those of `calculateMeasurements`, for the day so far and for
closed days, are the weighted index of a valid basket (`PublishedIndex.valid`), so they have its
laws (`price_index_laws`).
-/

namespace Obolos

namespace Metrics

open Json WeightedIndex

variable {asset : EconomyAsset} {basket : List PriceComponent}

/-- A component of the basket whose price is known. -/
def PriceComponent.term (p : PriceComponent) : Term :=
  ⟨p.weightBps, p.currentAtomic.getD 0, p.baselineAtomic⟩

/-- The basket of an asset. -/
def terms (asset : EconomyAsset) (basket : List PriceComponent) : List Term :=
  (componentsOf asset basket).map PriceComponent.term

/-- Every price of the basket is known, and there is one. -/
def Priced (asset : EconomyAsset) (basket : List PriceComponent) : Prop :=
  componentsOf asset basket ≠ [] ∧ ∀ p ∈ componentsOf asset basket, p.currentAtomic.isSome = true

theorem arpi_eq_some {n : ℤ} : arpi (componentsOf asset basket) = some n ↔
    Priced asset basket ∧ n = index bps (terms asset basket) := by
  have hguard : (!(componentsOf asset basket).isEmpty &&
      (componentsOf asset basket).all fun p => p.currentAtomic.isSome) = true ↔
      Priced asset basket := by
    simp [Priced]
  have hindex : index bps (terms asset basket) = ((componentsOf asset basket).map fun p =>
      (p.weightBps * p.currentAtomic.getD 0 * bps).tdiv p.baselineAtomic).sum.tdiv bps := by
    rw [index, terms, List.map_map]
    rfl
  rw [arpi, hindex]
  by_cases h : Priced asset basket
  · rw [if_pos (hguard.2 h), Option.some_inj]
    exact ⟨fun hn => ⟨h, hn.symm⟩, fun hn => hn.2.symm⟩
  · rw [if_neg fun hpriced => h (hguard.1 hpriced)]
    exact ⟨fun hn => absurd hn.symm (Option.some_ne_none n), fun hn => absurd hn.1 h⟩

theorem ValidBasket.terms (h : ValidBasket asset basket) (hpriced : Priced asset basket) :
    Valid bps (terms asset basket) where
  positive := by
    intro t ht
    obtain ⟨p, hp, rfl⟩ := List.mem_map.1 ht
    obtain ⟨hweight, hbaseline, hcurrent⟩ := h.prices p hp
    obtain ⟨n, hn⟩ := Option.isSome_iff_exists.1 (hpriced.2 p hp)
    refine ⟨hweight, ?_, hbaseline⟩
    rw [PriceComponent.term, hn]
    exact hcurrent n hn
  total := by
    rw [Metrics.terms, List.map_map]
    exact h.weights.resolve_left hpriced.1
  scale_pos := by decide

end Metrics

namespace Measurements

open WeightedIndex

variable {H : Host} {q : List MeasurementService} {asOf : ℚ} {f s : MeasurementService}
  {cs : List MeasurementPriceComponent} {c : MeasurementPriceComponent}

/-- A component at some price. -/
def MeasurementPriceComponent.term (c : MeasurementPriceComponent) (price : ℤ) : Term :=
  ⟨c.weightBps, price, c.baselineAtomic.getD 0⟩

/-- The components at their prices. -/
def terms (cs : List MeasurementPriceComponent) (current : List ℤ) : List Term :=
  (cs.zip current).map fun p => p.1.term p.2

/-- The price of a quote can be read, and is positive. -/
def MeasurementService.Priced (s : MeasurementService) : Prop :=
  ∃ n, s.unitPrice.value = some n ∧ 0 < n

theorem bigInt_eq_ok {a : Amount} {n : ℤ} : bigInt a = .ok n ↔ a.value = some n := by
  unfold bigInt
  cases a.value <;> simp

theorem register_priced {R R' : Registered} (h : register H asOf R s = .ok R')
    (hR : ∀ s ∈ R.services, s.Priced) : ∀ s ∈ R'.services, s.Priced := by
  unfold register at h
  simp only [JsError.raise, JsError.throwIf_eq_ok, bind_eq_ok, bigInt_eq_ok, pure_eq_ok] at h
  obtain ⟨-, -, -, -, n, hn, hpositive, -, rfl⟩ := h
  intro x hx
  dsimp only at hx
  split_ifs at hx
  · rcases List.mem_append.1 hx with hx | hx
    · exact hR x hx
    · rw [List.mem_singleton.1 hx]
      exact ⟨n, hn, not_le.1 hpositive⟩
  · exact hR x hx

theorem registered_priced {services : List MeasurementService} {R R' : Registered}
    (h : services.foldlM (register H asOf) R = .ok R') (hR : ∀ s ∈ R.services, s.Priced) :
    ∀ s ∈ R'.services, s.Priced := by
  induction services generalizing R with
  | nil =>
    rw [← Except.ok.inj h]
    exact hR
  | cons s services ih =>
    rw [List.foldlM_cons] at h
    obtain ⟨R₁, hs, h⟩ := bind_eq_ok.1 h
    exact ih h (register_priced hs hR)

theorem mem_lastOf {rows : List MeasurementService} (h : lastOf rows = .ok s) : s ∈ rows := by
  unfold lastOf at h
  cases hlast : rows.getLast? with
  | none =>
    rw [hlast] at h
    cases h
  | some x =>
    rw [hlast] at h
    cases h
    exact List.mem_of_getLast? hlast

/-- The basket has a baseline for every family. -/
theorem baseline_isSome (hcomplete : complete q = true) (hf : some f ∈ families q) :
    ∃ s ∈ q, baseline q f = some s := by
  have hmem : f ∈ (q.take (baselinePosition q + 1)).filter fun s => comparable s f := by
    refine List.mem_filter.2 ⟨?_, by simp [comparable]⟩
    have hle : q.idxOf f ≤ baselinePosition q :=
      le_foldl_max.2 (Or.inr ⟨q.idxOf f, List.mem_filterMap.2 ⟨some f, hf, rfl⟩, le_rfl⟩)
    have hlt := List.idxOf_lt_length_of_mem (mem_families hf)
    refine List.mem_take_iff_getElem.2 ⟨q.idxOf f, by omega, List.getElem_idxOf hlt⟩
  rw [baseline, if_pos hcomplete]
  cases hlast : ((q.take (baselinePosition q + 1)).filter fun s => comparable s f).getLast? with
  | none =>
    rw [List.getLast?_eq_none_iff.1 hlast] at hmem
    exact absurd hmem List.not_mem_nil
  | some s => exact ⟨s, List.mem_of_mem_take (List.mem_of_mem_filter (List.mem_of_getLast? hlast)), rfl⟩

/-- A component of a complete basket. -/
theorem component_priced (hq : ∀ s ∈ q, s.Priced) (hcomplete : complete q = true)
    (hf : some f ∈ families q) (h : component q asOf f = .ok c) :
    c.weightBps = 2000 ∧ 0 < c.currentAtomic ∧ 0 < c.baselineAtomic.getD 0 := by
  obtain ⟨s, hs, hbaseline⟩ := baseline_isSome hcomplete hf
  unfold component at h
  simp only [bind_eq_ok, pure_eq_ok, bigInt_eq_ok, hbaseline] at h
  obtain ⟨current, hcurrent, quantity, -, baselineAtomic, hatomic, price, hprice, rfl⟩ := h
  obtain ⟨n, hn, hpositive⟩ := hq _ (List.mem_of_mem_filter (mem_lastOf hcurrent))
  obtain ⟨m, hm, hpositive'⟩ := hq s hs
  rw [hn] at hprice
  cases hprice
  have hvalue : bigInt s.unitPrice = .ok m := bigInt_eq_ok.2 hm
  simp only [Option.mapM_some, hvalue, map_eq_ok, Except.ok.injEq] at hatomic
  obtain ⟨_, rfl, rfl⟩ := hatomic
  exact ⟨rfl, hpositive, hpositive'⟩

/-- A complete basket has a component of each category. -/
theorem length_families (hcomplete : complete q = true) :
    ((families q).filterMap id).length = resourceCategories.length := by
  rw [families, List.filterMap_map, Function.id_comp, List.filterMap_length_eq_length]
  intro c hc
  obtain ⟨s, hs, hsc⟩ := complete_iff.1 hcomplete c hc
  exact List.find?_isSome.2 ⟨s, hs, decide_eq_true hsc⟩

theorem components_priced (hq : ∀ s ∈ q, s.Priced) (hcomplete : complete q = true)
    (h : components q asOf = .ok cs) : cs.length = 5 ∧
      ∀ c ∈ cs, c.weightBps = 2000 ∧ 0 < c.currentAtomic ∧ 0 < c.baselineAtomic.getD 0 := by
  have hpairs := Loops.mapM_pairs h
  refine ⟨hpairs.length_eq.symm.trans (length_families hcomplete), fun c hc => ?_⟩
  obtain ⟨f, hf, hcomponent⟩ := Loops.mem_of_mapM h hc
  exact component_priced hq hcomplete (mem_filterMap_families hf) hcomponent

/-- The components of a complete basket at positive prices. -/
theorem terms_valid {current : List ℤ} (hlength : cs.length = 5)
    (hcs : ∀ c ∈ cs, c.weightBps = 2000 ∧ 0 < c.currentAtomic ∧ 0 < c.baselineAtomic.getD 0)
    (hcurrent : current.length = 5) (hpositive : ∀ n ∈ current, 0 < n) :
    Valid bps (terms cs current) where
  positive := by
    intro t ht
    obtain ⟨p, hp, rfl⟩ := List.mem_map.1 ht
    obtain ⟨hc, hn⟩ := List.of_mem_zip hp
    obtain ⟨hweight, -, hbaseline⟩ := hcs _ hc
    exact ⟨by simp [MeasurementPriceComponent.term, hweight], hpositive _ hn, hbaseline⟩
  total := by
    have hweights : (terms cs current).map Term.weight = (cs.zip current).map fun _ => 2000 := by
      rw [terms, List.map_map]
      refine List.map_congr_left fun p hp => ?_
      exact (hcs _ (List.of_mem_zip hp).1).1
    rw [hweights, List.map_const', List.sum_replicate, List.length_zip, hlength, hcurrent]
    rfl
  scale_pos := by decide

/-- `priceIndex` is the weighted index of the components. -/
theorem priceIndex_eq {current : List ℤ} {n : ℤ} (h : priceIndex cs current = .ok n) :
    n = index bps (terms cs current) := by
  unfold priceIndex at h
  simp only [bind_eq_ok, pure_eq_ok] at h
  obtain ⟨shares, hshares, rfl⟩ := h
  have hpairs := Loops.mapM_pairs hshares
  have heq : shares = (terms cs current).map (Term.share bps) := by
    rw [terms, List.map_map, ← List.forall₂_eq_eq_eq, List.forall₂_map_right_iff]
    refine hpairs.flip.imp fun share p hp => ?_
    unfold indexTerm at hp
    cases hbaseline : p.1.baselineAtomic with
    | none =>
      rw [hbaseline] at hp
      cases hp
    | some b =>
      rw [hbaseline] at hp
      dsimp only at hp
      split_ifs at hp
      rw [← Except.ok.inj hp]
      simp [Term.share, MeasurementPriceComponent.term, hbaseline]
  rw [heq, index]

theorem map_closedQuote {selected : List MeasurementService} {unitPrices : List ℤ}
    (h : selected.length = unitPrices.length) :
    (selected.zipWith closedQuote unitPrices).map (·.unitPriceAtomic) = unitPrices := by
  induction selected generalizing unitPrices with
  | nil =>
    cases unitPrices with
    | nil => rfl
    | cons n unitPrices => cases h
  | cons s selected ih =>
    cases unitPrices with
    | nil => cases h
    | cons n unitPrices => exact congrArg (n :: ·) (ih (Nat.succ.inj h))

/-- The index of a closed day. -/
theorem closedDay_valid {time : ℚ} {day : MeasurementPriceSnapshot} (hq : ∀ s ∈ q, s.Priced)
    (hcomponents : components q asOf = .ok cs) (h : closedDay q cs time = .ok (some day)) :
    Valid bps (terms cs (day.quotes.map (·.unitPriceAtomic))) ∧
      day.indexBps = index bps (terms cs (day.quotes.map (·.unitPriceAtomic))) := by
  unfold closedDay at h
  cases hbaseline : baselineAt q with
  | none =>
    rw [hbaseline] at h
    cases h
  | some start =>
    have hcomplete : complete q = true := by
      by_contra hnot
      rw [baselineAt, if_neg hnot] at hbaseline
      cases hbaseline
    rw [hbaseline] at h
    simp only at h
    split at h
    · cases h
    · simp only [bind_eq_ok, pure_eq_ok, Option.some.injEq] at h
      obtain ⟨selected, hselected, unitPrices, hprices, n, hn, rfl⟩ := h
      have hlength := (Loops.mapM_pairs hselected).length_eq.symm.trans (length_families hcomplete)
      have hlength' := (Loops.mapM_pairs hprices).length_eq.symm.trans hlength
      have hpositive : ∀ n ∈ unitPrices, 0 < n := by
        intro n hn
        obtain ⟨s, hs, hvalue⟩ := Loops.mem_of_mapM hprices hn
        obtain ⟨f, hf, hlatest⟩ := Loops.mem_of_mapM hselected hs
        obtain ⟨m, hm, hpositive⟩ := hq s (List.mem_of_mem_filter (mem_lastOf hlatest))
        rw [bigInt_eq_ok, hm] at hvalue
        cases hvalue
        exact hpositive
      obtain ⟨hcs, hpriced⟩ := components_priced hq hcomplete hcomponents
      rw [map_closedQuote (hlength.trans hlength'.symm)]
      exact ⟨terms_valid hcs hpriced hlength' hpositive, priceIndex_eq hn⟩

/-- The index of the day so far. -/
theorem prices_index {p : Prices} (hq : ∀ s ∈ q, s.Priced) (h : prices H q asOf = .ok p) :
    (p.indexBps.isSome = true ↔ p.complete = true) ∧ ∀ n, p.indexBps = some n →
      Valid bps (terms p.components (p.components.map (·.currentAtomic))) ∧
        n = index bps (terms p.components (p.components.map (·.currentAtomic))) := by
  unfold prices at h
  simp only [bind_eq_ok, pure_eq_ok] at h
  obtain ⟨cs, hcs, indexBps, hindex, _, -, _, -, rfl⟩ := h
  rw [currentIndex] at hindex
  by_cases hcomplete : complete q = true
  · rw [if_pos hcomplete] at hindex
    obtain ⟨n, hn, rfl⟩ := map_eq_ok.1 hindex
    refine ⟨by simp [hcomplete], fun m hm => ?_⟩
    cases hm
    obtain ⟨hlength, hpriced⟩ := components_priced hq hcomplete hcs
    refine ⟨terms_valid hlength hpriced (by rw [List.length_map, hlength]) fun n hn => ?_,
      priceIndex_eq hn⟩
    obtain ⟨c, hc, rfl⟩ := List.mem_map.1 hn
    exact (hpriced c hc).2.1
  · rw [if_neg hcomplete] at hindex
    cases hindex
    refine ⟨by simp [hcomplete], fun m hm => ?_⟩
    cases hm

/-- The quotes that an accepted input is measured with. -/
theorem quotes_priced {localeCompare : JsString → JsString → ℤ} {input : MeasurementInput}
    {m : EconomyMeasurements} (h : calculateMeasurements H localeCompare input = .ok m) :
    ∃ q, (∀ s ∈ q, MeasurementService.Priced s) ∧ prices H q input.asOf = .ok m.prices := by
  obtain ⟨R, hR, hp⟩ := calculateMeasurements_ok h
  refine ⟨quotes R.services, fun s hs => ?_, hp⟩
  rw [quotes, sortBy_of_index, mem_sortBy] at hs
  exact registered_priced hR (by simp) s hs

end Measurements

open WeightedIndex

/-- An index that is published: the components of its basket, and its value. -/
inductive PublishedIndex : List Term → ℤ → Prop
  | metrics {numerals : Json.Numerals} {localeCompare : JsString → JsString → ℤ}
      {events : List Metrics.EconomicSettlement} {basket : List Metrics.PriceComponent}
      {window : Metrics.MetricWindow} {r : Metrics.EconomyMetrics} {n : ℤ} :
    Metrics.calculateEconomyMetrics numerals localeCompare events basket window = .ok r →
    r.arpiBps = some n → PublishedIndex (Metrics.terms window.asset basket) n
  | measurements {H : Host} {localeCompare : JsString → JsString → ℤ}
      {input : Measurements.MeasurementInput} {m : Measurements.EconomyMeasurements} {n : ℤ} :
    Measurements.calculateMeasurements H localeCompare input = .ok m →
    m.prices.indexBps = some n →
    PublishedIndex (Measurements.terms m.prices.components
      (m.prices.components.map (·.currentAtomic))) n
  | closedDay {H : Host} {localeCompare : JsString → JsString → ℤ}
      {input : Measurements.MeasurementInput} {m : Measurements.EconomyMeasurements}
      {day : Measurements.MeasurementPriceSnapshot} :
    Measurements.calculateMeasurements H localeCompare input = .ok m →
    day ∈ m.prices.closedDays →
    PublishedIndex (Measurements.terms m.prices.components
      (day.quotes.map (·.unitPriceAtomic))) day.indexBps

/-- Every published index is the weighted index of a valid basket. -/
theorem PublishedIndex.valid {l : List Term} {n : ℤ} (h : PublishedIndex l n) :
    Valid 10000 l ∧ n = index 10000 l := by
  cases h with
  | metrics hr hn =>
    obtain ⟨haccepted, rfl⟩ := Metrics.calculateEconomyMetrics_iff.1 hr
    obtain ⟨hpriced, rfl⟩ := Metrics.arpi_eq_some.1 hn
    exact ⟨haccepted.validBasket.terms hpriced, rfl⟩
  | measurements hm hn =>
    obtain ⟨q, hq, hp⟩ := Measurements.quotes_priced hm
    exact (Measurements.prices_index hq hp).2 _ hn
  | closedDay hm hday =>
    obtain ⟨q, hq, hp⟩ := Measurements.quotes_priced hm
    obtain ⟨-, -, hday⟩ := Measurements.closedDays_ok hp hday
    exact Measurements.closedDay_valid hq (Measurements.prices_ok hp).1 hday

/-- The laws of an index. -/
structure IndexLaws (l : List Term) (n : ℤ) : Prop where
  unchanged : (∀ t ∈ l, t.current = t.baseline) → n = 10000
  uniform : ∀ k : ℤ, 1 ≤ k → (∀ t ∈ l, t.current = k * t.baseline) → n = 10000 * k
  monotone : ∀ l' n', PublishedIndex l' n' → List.Forall₂ AtMost l l' → n ≤ n'
  order : ∀ l' n', PublishedIndex l' n' → l.Perm l' → n = n'
  /-- At most the largest ratio. -/
  le_max : ∃ t ∈ l, (∀ u ∈ l, u.ratio 10000 ≤ t.ratio 10000) ∧ (n : ℚ) ≤ t.ratio 10000
  /-- Greater than the smallest ratio minus two. -/
  min_lt : ∃ t ∈ l, (∀ u ∈ l, t.ratio 10000 ≤ u.ratio 10000) ∧ t.ratio 10000 - 2 < n

/-- The indices are there when all prices are, and a published index has the laws. -/
theorem price_index_laws :
    (∀ numerals localeCompare events basket window r,
      Metrics.calculateEconomyMetrics numerals localeCompare events basket window = .ok r →
      (r.arpiBps.isSome = true ↔ Metrics.Priced window.asset basket)) ∧
    (∀ H localeCompare input m,
      Measurements.calculateMeasurements H localeCompare input = .ok m →
      (m.prices.indexBps.isSome = true ↔ m.prices.complete = true)) ∧
    ∀ l n, PublishedIndex l n → IndexLaws l n := by
  refine ⟨fun numerals localeCompare events basket window r h => ?_,
    fun H localeCompare input m h => ?_, fun l n h => ?_⟩
  · obtain ⟨-, rfl⟩ := Metrics.calculateEconomyMetrics_iff.1 h
    rw [Option.isSome_iff_exists]
    exact ⟨fun ⟨n, hn⟩ => (Metrics.arpi_eq_some.1 hn).1,
      fun hpriced => ⟨_, Metrics.arpi_eq_some.2 ⟨hpriced, rfl⟩⟩⟩
  · obtain ⟨q, hq, hp⟩ := Measurements.quotes_priced h
    exact (Measurements.prices_index hq hp).1
  · obtain ⟨hvalid, rfl⟩ := h.valid
    have huniform : ∀ k : ℤ, (∀ t ∈ l, t.current = k * t.baseline) →
        index 10000 l = 10000 * k := by
      intro k hk
      rw [index_uniform hvalid k hk, mul_comm]
    obtain ⟨t, ht, hmax⟩ := hvalid.exists_max
    obtain ⟨u, hu, hmin⟩ := hvalid.exists_min
    constructor
    · intro hsame
      exact huniform 1 fun t ht => (hsame t ht).trans (one_mul _).symm
    · exact fun k _ hk => huniform k hk
    · intro l' n' h' hle
      obtain ⟨hvalid', rfl⟩ := h'.valid
      exact index_mono hvalid hvalid' hle
    · intro l' n' h' hperm
      rw [h'.valid.2, index_perm hperm]
    · exact ⟨t, ht, hmax, index_le hvalid hmax⟩
    · exact ⟨u, hu, hmin, lt_index hvalid hmin⟩

/-- The index of a basket of two components. -/
theorem price_index_laws_components :
    IndexLaws [⟨6000, 60, 50⟩, ⟨4000, 30, 40⟩] 10200 :=
  price_index_laws.2.2 _ _ (.metrics (Metrics.calculateEconomyMetrics_iff.2
    ⟨Metrics.Sample.accepted, rfl⟩ : Metrics.calculateEconomyMetrics .plain (fun _ _ => 0)
      Metrics.Sample.orders Metrics.Sample.prices Metrics.Sample.seconds = .ok _) rfl)

end Obolos
