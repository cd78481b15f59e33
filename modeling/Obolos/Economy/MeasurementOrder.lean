import Obolos.Economy.IndexLaws
import Obolos.Economy.MeasurementMerges

/-!
# The order of the measured rows

The settlements, agents, balances and refunds that `calculateMeasurements` reads are unordered.  Their
order changes neither the figures nor whether there are any, unless an address has a missing
balance beside two different known ones: the loop over the balances throws if it meets the two
first, and not if it meets the missing one first (`measurements_unordered_iff`).
-/

namespace Obolos

namespace Measurements

variable {H : Host} {localeCompare : JsString → JsString → ℤ} {q : List MeasurementService}
  {asOf : ℚ} {f s : MeasurementService} {cs : List MeasurementPriceComponent}

/-! ### The prices of registered quotes -/

/-- Registered quotes in their order. -/
structure Quoted (asOf : ℚ) (q : List MeasurementService) : Prop where
  priced : ∀ s ∈ q, s.Priced
  quantity : ∀ s ∈ q, ∃ n, s.quantity.value = some n
  registered : ∀ s ∈ q, s.registeredAt ≤ asOf
  sorted : q.Pairwise fun a b => a.registeredAt ≤ b.registeredAt

theorem register_quoted {R R' : Registered} (h : register H asOf R s = .ok R')
    (hR : ∀ s ∈ R.services, (∃ n, s.quantity.value = some n) ∧ s.registeredAt ≤ asOf) :
    ∀ s ∈ R'.services, (∃ n, s.quantity.value = some n) ∧ s.registeredAt ≤ asOf := by
  unfold register at h
  simp only [JsError.raise, JsError.throwIf_eq_ok, bind_eq_ok, bigInt_eq_ok, pure_eq_ok] at h
  obtain ⟨-, n, hn, -, -, -, -, -, rfl⟩ := h
  intro x hx
  dsimp only at hx
  split_ifs at hx with hnew
  · rcases List.mem_append.1 hx with hx | hx
    · exact hR x hx
    · rw [List.mem_singleton.1 hx]
      simp only [Bool.and_eq_true, decide_eq_true_eq] at hnew
      exact ⟨⟨n, hn⟩, hnew.2⟩
  · exact hR x hx

theorem registered_quoted {services : List MeasurementService} {R R' : Registered}
    (h : services.foldlM (register H asOf) R = .ok R')
    (hR : ∀ s ∈ R.services, (∃ n, s.quantity.value = some n) ∧ s.registeredAt ≤ asOf) :
    ∀ s ∈ R'.services, (∃ n, s.quantity.value = some n) ∧ s.registeredAt ≤ asOf := by
  induction services generalizing R with
  | nil =>
    rw [← Except.ok.inj h]
    exact hR
  | cons s services ih =>
    rw [List.foldlM_cons] at h
    obtain ⟨R₁, hs, h⟩ := bind_eq_ok.1 h
    exact ih h (register_quoted hs hR)

theorem quotes_quoted {services : List MeasurementService} {R : Registered}
    (h : services.foldlM (register H asOf) ⟨[], []⟩ = .ok R) : Quoted asOf (quotes R.services) := by
  have hmem : ∀ {s}, s ∈ quotes R.services → s ∈ R.services := by
    intro s hs
    rwa [quotes, sortBy_of_index, mem_sortBy] at hs
  have hall := registered_quoted h (by simp)
  refine ⟨fun s hs => registered_priced h (by simp) s (hmem hs), fun s hs => (hall s (hmem hs)).1,
    fun s hs => (hall s (hmem hs)).2, ?_⟩
  rw [quotes, sortBy_of_index]
  exact sorted_sortBy

theorem exists_lastOf {rows : List MeasurementService} (h : s ∈ rows) : ∃ x, lastOf rows = .ok x := by
  unfold lastOf
  cases hlast : rows.getLast? with
  | none =>
    rw [List.getLast?_eq_none_iff.1 hlast] at h
    exact absurd h List.not_mem_nil
  | some x => exact ⟨x, rfl⟩

theorem Quoted.exists_component (hq : Quoted asOf q) (hf : some f ∈ families q) :
    ∃ c, component q asOf f = .ok c := by
  have hfq := mem_families hf
  have hself : f ∈ q.filter fun s => comparable s f && decide (s.registeredAt ≤ asOf) :=
    List.mem_filter.2 ⟨hfq, by simp [comparable, hq.registered f hfq]⟩
  obtain ⟨current, hcurrent⟩ := exists_lastOf hself
  obtain ⟨quantity, hquantity⟩ := hq.quantity f hfq
  obtain ⟨price, hprice, -⟩ := hq.priced current (List.mem_of_mem_filter (mem_lastOf hcurrent))
  have hatomic : ∃ n, (baseline q f).mapM (fun s => bigInt s.unitPrice) = .ok n := by
    cases hbaseline : baseline q f with
    | none => exact ⟨none, rfl⟩
    | some s =>
      have hs : s ∈ q := by
        unfold baseline at hbaseline
        split_ifs at hbaseline
        exact List.mem_of_mem_take (List.mem_of_mem_filter (List.mem_of_getLast? hbaseline))
      obtain ⟨n, hn, -⟩ := hq.priced s hs
      exact ⟨some n, by rw [Option.mapM_some, bigInt_eq_ok.2 hn]; rfl⟩
  obtain ⟨n, hn⟩ := hatomic
  unfold component
  simp only [bind_eq_ok, pure_eq_ok, bigInt_eq_ok]
  exact ⟨_, current, hcurrent, quantity, hquantity, n, hn, price, hprice, rfl⟩

theorem Quoted.exists_components (hq : Quoted asOf q) : ∃ cs, components q asOf = .ok cs :=
  Loops.exists_mapM fun _ hf => hq.exists_component (mem_filterMap_families hf)

theorem exists_priceIndex (hcs : ∀ c ∈ cs, 0 < c.baselineAtomic.getD 0) (current : List ℤ) :
    ∃ n, priceIndex cs current = .ok n := by
  have hterms : ∀ p ∈ cs.zip current, ∃ n, indexTerm p.1.baselineAtomic p.1.weightBps p.2 = .ok n := by
    intro p hp
    have hpositive := hcs _ (List.of_mem_zip hp).1
    unfold indexTerm
    cases hbaseline : p.1.baselineAtomic with
    | none =>
      rw [hbaseline] at hpositive
      exact absurd hpositive (lt_irrefl _)
    | some n =>
      rw [hbaseline] at hpositive
      exact ⟨_, if_neg hpositive.ne'⟩
  obtain ⟨terms, hterms⟩ := Loops.exists_mapM hterms
  unfold priceIndex
  simp only [bind_eq_ok, pure_eq_ok]
  exact ⟨_, terms, hterms, rfl⟩

/-- A family was registered by the time of the baseline. -/
theorem Quoted.le_baselineAt (hq : Quoted asOf q) {time : ℚ} (hf : some f ∈ families q)
    (h : baselineAt q = some time) : f.registeredAt ≤ time := by
  unfold baselineAt at h
  split_ifs at h with hcomplete
  obtain ⟨s, hs, rfl⟩ := Option.map_eq_some_iff.1 h
  have hfq := mem_families hf
  have hlt := List.idxOf_lt_length_of_mem hfq
  have hle : q.idxOf f ≤ baselinePosition q :=
    le_foldl_max.2 (Or.inr ⟨q.idxOf f, List.mem_filterMap.2 ⟨some f, hf, rfl⟩, le_rfl⟩)
  obtain ⟨hbound, rfl⟩ := List.getElem?_eq_some_iff.1 hs
  rcases hle.lt_or_eq with hlt' | heq
  · have hpair := List.pairwise_iff_getElem.1 hq.sorted _ _ hlt hbound hlt'
    rwa [List.getElem_idxOf hlt] at hpair
  · simp only [← heq, List.getElem_idxOf hlt, le_refl]

theorem Quoted.exists_closedDay (hq : Quoted asOf q) (h : components q asOf = .ok cs) (time : ℚ) :
    ∃ day, closedDay q cs time = .ok day := by
  unfold closedDay
  cases hbaseline : baselineAt q with
  | none => exact ⟨none, rfl⟩
  | some start =>
    dsimp only
    by_cases hbefore : (time - daySeconds < 0 || time - daySeconds ≤ start) = true
    · rw [if_pos hbefore]
      exact ⟨none, rfl⟩
    · have hcomplete : complete q = true := by
        by_contra hnot
        rw [baselineAt, if_neg hnot] at hbaseline
        cases hbaseline
      have hday : (0 : ℚ) < daySeconds := by norm_num [daySeconds]
      have hstart : start < time := by
        simp only [Bool.or_eq_true, decide_eq_true_eq, not_or, not_lt, not_le] at hbefore
        linarith [hbefore.2]
      have hselected : ∀ f ∈ (families q).filterMap id, ∃ s, latestBefore q f time = .ok s := by
        intro f hf
        have hf := mem_filterMap_families hf
        exact exists_lastOf (List.mem_filter.2 ⟨mem_families hf, by
          simp [comparable, (hq.le_baselineAt hf hbaseline).trans_lt hstart]⟩)
      obtain ⟨selected, hselected⟩ := Loops.exists_mapM hselected
      have hprices : ∀ s ∈ selected, ∃ n, bigInt s.unitPrice = .ok n := by
        intro s hs
        obtain ⟨f, -, hlatest⟩ := Loops.mem_of_mapM hselected hs
        obtain ⟨n, hn, -⟩ := hq.priced s (List.mem_of_mem_filter (mem_lastOf hlatest))
        exact ⟨n, bigInt_eq_ok.2 hn⟩
      obtain ⟨unitPrices, hprices⟩ := Loops.exists_mapM hprices
      obtain ⟨n, hn⟩ := exists_priceIndex
        (fun c hc => ((components_priced hq.priced hcomplete h).2 c hc).2.2) unitPrices
      rw [if_neg hbefore]
      simp only [bind_eq_ok, pure_eq_ok]
      exact ⟨_, selected, hselected, unitPrices, hprices, n, hn, rfl⟩

/-- Registered quotes have prices. -/
theorem Quoted.exists_prices (hq : Quoted asOf q) : ∃ p, prices H q asOf = .ok p := by
  obtain ⟨cs, hcs⟩ := hq.exists_components
  have hindex : ∃ n, currentIndex q cs = .ok n := by
    rw [currentIndex]
    split_ifs with hcomplete
    · obtain ⟨n, hn⟩ := exists_priceIndex
        (fun c hc => ((components_priced hq.priced hcomplete hcs).2 c hc).2.2)
        (cs.map (·.currentAtomic))
      exact ⟨some n, map_eq_ok.2 ⟨n, hn, rfl⟩⟩
    · exact ⟨none, rfl⟩
  obtain ⟨n, hn⟩ := hindex
  obtain ⟨prior, hprior⟩ := hq.exists_closedDay hcs (dayStart asOf)
  obtain ⟨preceding, hpreceding⟩ := hq.exists_closedDay hcs (dayStart asOf - daySeconds)
  unfold prices
  simp only [bind_eq_ok, pure_eq_ok]
  exact ⟨_, cs, hcs, n, hn, prior, hprior, preceding, hpreceding, rfl⟩

/-! ### What is returned -/

/-- `orders` -/
def ordersOf (input : MeasurementInput) : List MeasurementSettlement :=
  input.settlements.filter fun o => o.asset = js "USDC" &&
    decide (input.fromTimestamp ≤ o.timestamp) && decide (o.timestamp ≤ input.asOf)

/-- `refunds` -/
def refundsOf (input : MeasurementInput) : List MeasurementRefund :=
  input.refunds.filter fun r => ((ordersOf input).map (·.orderId)).contains r.orderId &&
    decide (input.fromTimestamp ≤ r.timestamp) && decide (r.timestamp ≤ input.asOf)

/-- The agents in the order of their identifiers. -/
def byId (localeCompare : JsString → JsString → ℤ) (agents : List MeasurementAgent) :
    List MeasurementAgent :=
  agents.insertionSort fun a b => localeCompare a.agentId b.agentId ≤ 0

/-- `balances`, of the active executors. -/
def executorBalances (activeAgents : List MeasurementAgent) (balanceMap : List Balance) :
    List Balance :=
  ((unique (activeAgents.map (·.executor))).insertionSort fun a b => a.le b = true).map fun address =>
    ⟨address, balanceOf balanceMap address⟩

/-- The measurements, after the loops that check and merge the input. -/
def report (H : Host) (localeCompare : JsString → JsString → ℤ) (input : MeasurementInput)
    (agents : List MeasurementAgent) (balanceMap : List Balance)
    (quotes : List MeasurementService) (prices : Prices) : EconomyMeasurements :=
  let orders := ordersOf input
  let refunds := refundsOf input
  let todayStart := dayStart input.asOf
  let today := window orders refunds input.asOf todayStart false
  let lifetime := window orders refunds input.asOf input.fromTimestamp true
  let activeAgents := byId localeCompare (agents.filter (·.active))
  let balances := executorBalances activeAgents balanceMap
  { asOf := input.asOf
    blockNumber := input.blockNumber
    blockHash := input.blockHash
    today
    lifetime
    activity := activity orders activeAgents input.asOf todayStart input.fromTimestamp
    capital := capital balances today lifetime
    prices
    provenance := {
      blockNumber := input.blockNumber
      blockHash := input.blockHash
      asOf := input.asOf
      fromTimestamp := input.fromTimestamp
      inputHash := digest H (.obj [(js "settlements", .arr (orders.map (·.row))),
        (js "services", .arr (quotes.map (·.json))),
        (js "agents", .arr ((byId localeCompare agents).map (·.json))),
        (js "balances", .arr (balances.map (·.json))), (js "asOf", .num input.asOf),
        (js "blockNumber", .str input.blockNumber), (js "blockHash", .str input.blockHash),
        (js "fromTimestamp", .num input.fromTimestamp), (js "refunds", .arr (refunds.map (·.row)))])
      orderIds := orders.map (·.orderId)
      settlementTransactionHashes := unique
        ((orders.filterMap (·.transactionHash)).filter fun hash => !hash.isEmpty)
      serviceHashes := quotes.map (·.serviceHash)
      serviceTransactionHashes := unique (quotes.map (·.transactionHash))
      refundSources := refunds
      missingDeliveryTimestampOrderIds :=
        (orders.filter fun o => o.delivered && (eventTime o .delivered).isNone).map (·.orderId)
      missingAcknowledgmentTimestampOrderIds := (orders.filter fun o =>
        o.buyerAcknowledged && (eventTime o .acknowledged).isNone).map (·.orderId) } }

/-- The amounts and the times of a settlement are valid. -/
def MeasurementSettlement.Valid (order : MeasurementSettlement) : Prop :=
  (validTime order.timestamp = true ∧ 0 < order.quantity ∧ 0 ≤ order.principalAtomic ∧
    0 ≤ order.sellerAtomic ∧ order.sellerAtomic ≤ order.principalAtomic) ∧
    ∀ time ∈ [order.deliveredAt, order.acknowledgedAt], ∀ t, time = some t →
      validTime t = true ∧ order.timestamp ≤ t

/-- The snapshot is valid. -/
def ValidSnapshot (input : MeasurementInput) : Prop :=
  validTime input.asOf = true ∧ validTime input.fromTimestamp = true ∧
    input.fromTimestamp ≤ input.asOf ∧ isDigits input.blockNumber = true ∧ input.blockHash ≠ []

/-- Everything but the balances is accepted. -/
structure Checked (H : Host) (input : MeasurementInput) : Prop where
  snapshot : ValidSnapshot input
  settlements : ∀ o ∈ input.settlements, o.Valid
  orderIds : (input.settlements.map (·.orderId)).Nodup
  refunds : ∀ r ∈ input.refunds, checkRefund r = .ok ()
  agents : Consistent input.agents
  services : ∃ R, input.services.foldlM (register H input.asOf) ⟨[], []⟩ = .ok R

variable {input : MeasurementInput} {m : EconomyMeasurements}

theorem checks_settlements :
    Loops.Checks (·.orderId) MeasurementSettlement.Valid checkSettlement := by
  intro seen o seen'
  have hunits : ¬(!validTime o.timestamp || o.quantity ≤ 0 || o.principalAtomic < 0 ||
      o.sellerAtomic < 0 || o.principalAtomic < o.sellerAtomic) = true ↔
      validTime o.timestamp = true ∧ 0 < o.quantity ∧ 0 ≤ o.principalAtomic ∧
        0 ≤ o.sellerAtomic ∧ o.sellerAtomic ≤ o.principalAtomic := by
    simp [not_or, and_assoc]
  have htimes : ¬([o.deliveredAt, o.acknowledgedAt].any fun time =>
      time.any fun time => !validTime time || time < o.timestamp) = true ↔
      ∀ time ∈ [o.deliveredAt, o.acknowledgedAt], ∀ t, time = some t →
        validTime t = true ∧ o.timestamp ≤ t := by
    rw [List.any_eq_true]
    push Not
    refine forall₂_congr fun time _ => ?_
    cases time <;> simp
  rw [checkSettlement, JsError.raise, JsError.raise, JsError.raise]
  by_cases hseen : o.orderId ∈ seen
  · simp [hseen]
  · rw [if_neg hseen]
    by_cases hbad : (!validTime o.timestamp || o.quantity ≤ 0 || o.principalAtomic < 0 ||
        o.sellerAtomic < 0 || o.principalAtomic < o.sellerAtomic) = true
    · rw [if_pos hbad]
      simp only [reduceCtorEq, false_iff, not_and]
      exact fun _ hvalid => absurd hbad (hunits.2 hvalid.1)
    · rw [if_neg hbad, Loops.refuse_eq_ok, htimes]
      exact ⟨fun h => ⟨hseen, ⟨hunits.1 hbad, h.1⟩, h.2⟩, fun h => ⟨h.2.1.2, h.2.2⟩⟩

theorem forM_checkRefund (refunds : List MeasurementRefund) :
    refunds.forM checkRefund = .ok () ↔ ∀ r ∈ refunds, checkRefund r = .ok () := by
  induction refunds with
  | nil => simp
  | cons r refunds ih =>
    rw [List.forall_mem_cons, ← ih]
    refine Iff.trans (bind_eq_ok (f := fun _ => refunds.forM checkRefund)) ?_
    exact ⟨fun ⟨_, h⟩ => h, fun h => ⟨(), h⟩⟩

/-- A call returns if everything is accepted and no loop over agents or balances throws. -/
theorem calculateMeasurements_iff :
    calculateMeasurements H localeCompare input = .ok m ↔ Checked H input ∧
      ∃ agents balanceMap R prices, input.agents.foldlM addAgent [] = .ok agents ∧
        input.balances.foldlM addBalance [] = .ok balanceMap ∧
        input.services.foldlM (register H input.asOf) ⟨[], []⟩ = .ok R ∧
        Measurements.prices H (quotes R.services) input.asOf = .ok prices ∧
        m = report H localeCompare input agents balanceMap (quotes R.services) prices := by
  have hsnapshot : ¬(!validTime input.asOf || !validTime input.fromTimestamp ||
      input.asOf < input.fromTimestamp || !isDigits input.blockNumber || input.blockHash.isEmpty) =
      true ↔ ValidSnapshot input := by
    simp [ValidSnapshot, not_or, and_assoc]
  have hsettlements := checks_settlements.checks_iff input.settlements
  have hrefunds := forM_checkRefund input.refunds
  simp only [calculateMeasurements, JsError.raise, JsError.throwIf_eq_ok, bind_eq_ok, pure_eq_ok]
  constructor
  · rintro ⟨hguard, seen, hseen, _, hforM, agents, hagents, balanceMap, hbalances, R, hR, p, hp, rfl⟩
    obtain ⟨hvalid, hids⟩ := hsettlements.1 ⟨seen, hseen⟩
    exact ⟨⟨hsnapshot.1 hguard, hvalid, hids, hrefunds.1 hforM,
      (addAgents_iff _).1 ⟨agents, hagents⟩, R, hR⟩,
      agents, balanceMap, R, p, hagents, hbalances, hR, hp, rfl⟩
  · rintro ⟨hchecked, agents, balanceMap, R, p, hagents, hbalances, hR, hp, rfl⟩
    obtain ⟨seen, hseen⟩ := hsettlements.2 ⟨hchecked.settlements, hchecked.orderIds⟩
    exact ⟨hsnapshot.2 hchecked.snapshot, seen, hseen, (), hrefunds.2 hchecked.refunds, agents,
      hagents, balanceMap, hbalances, R, hR, p, hp, rfl⟩

/-- A call returns exactly if the loop over the balances does, too. -/
theorem exists_measurements :
    (∃ m, calculateMeasurements H localeCompare input = .ok m) ↔ Checked H input ∧
      ∃ balanceMap, input.balances.foldlM addBalance [] = .ok balanceMap := by
  constructor
  · rintro ⟨m, h⟩
    obtain ⟨hchecked, _, balanceMap, _, _, -, hbalances, -⟩ := calculateMeasurements_iff.1 h
    exact ⟨hchecked, balanceMap, hbalances⟩
  · rintro ⟨hchecked, balanceMap, hbalances⟩
    obtain ⟨agents, hagents⟩ := (addAgents_iff _).2 hchecked.agents
    obtain ⟨R, hR⟩ := hchecked.services
    obtain ⟨p, hp⟩ := (quotes_quoted hR).exists_prices (H := H)
    exact ⟨_, calculateMeasurements_iff.2
      ⟨hchecked, agents, balanceMap, R, p, hagents, hbalances, hR, hp, rfl⟩⟩

/-! ### Figures up to the order of lists -/

/-- Sorting texts forgets their order. -/
theorem sorted_perm {l l' : List JsString} (h : l.Perm l') :
    l.insertionSort (fun a b => a.le b = true) = l'.insertionSort fun a b => a.le b = true := by
  have : Std.Total fun a b : JsString => a.le b = true := ⟨Json.le_total⟩
  have : IsTrans JsString fun a b => a.le b = true := ⟨fun _ _ _ => Json.le_trans⟩
  have : Std.Antisymm fun a b : JsString => a.le b = true := ⟨fun _ _ => Json.le_antisymm⟩
  refine List.Perm.eq_of_pairwise' (List.pairwise_insertionSort _ l)
    (List.pairwise_insertionSort _ l') ?_
  exact (List.perm_insertionSort _ l).trans (h.trans (List.perm_insertionSort _ l').symm)

/-- The same figures, and the same identifiers in some order. -/
structure SameWindow (w w' : MeasurementWindow) : Prop where
  figures : w' = { w with
    orderIds := w'.orderIds
    deliveredOrderIds := w'.deliveredOrderIds
    acknowledgedOrderIds := w'.acknowledgedOrderIds }
  orderIds : w.orderIds.Perm w'.orderIds
  deliveredOrderIds : w.deliveredOrderIds.Perm w'.deliveredOrderIds
  acknowledgedOrderIds : w.acknowledgedOrderIds.Perm w'.acknowledgedOrderIds

/-- The same figures, and the same identifiers in some order; the hash of the input is left out. -/
structure SameFigures (m m' : EconomyMeasurements) : Prop where
  snapshot : m'.asOf = m.asOf ∧ m'.blockNumber = m.blockNumber ∧ m'.blockHash = m.blockHash
  today : SameWindow m.today m'.today
  lifetime : SameWindow m.lifetime m'.lifetime
  activity : m'.activity = { m.activity with
    activeAgentIds := m'.activity.activeAgentIds }
  activeAgentIds : m.activity.activeAgentIds.Perm m'.activity.activeAgentIds
  capital : m'.capital = m.capital
  prices : m'.prices = m.prices
  provenance : m'.provenance = { m.provenance with
    inputHash := m'.provenance.inputHash
    orderIds := m'.provenance.orderIds
    settlementTransactionHashes := m'.provenance.settlementTransactionHashes
    refundSources := m'.provenance.refundSources
    missingDeliveryTimestampOrderIds := m'.provenance.missingDeliveryTimestampOrderIds
    missingAcknowledgmentTimestampOrderIds := m'.provenance.missingAcknowledgmentTimestampOrderIds }
  orderIds : m.provenance.orderIds.Perm m'.provenance.orderIds
  settlementTransactionHashes :
    m.provenance.settlementTransactionHashes.Perm m'.provenance.settlementTransactionHashes
  refundSources : m.provenance.refundSources.Perm m'.provenance.refundSources
  missingDeliveryTimestampOrderIds : m.provenance.missingDeliveryTimestampOrderIds.Perm
    m'.provenance.missingDeliveryTimestampOrderIds
  missingAcknowledgmentTimestampOrderIds :
    m.provenance.missingAcknowledgmentTimestampOrderIds.Perm
      m'.provenance.missingAcknowledgmentTimestampOrderIds

section Figures

variable {orders orders' : List MeasurementSettlement} {refunds refunds' : List MeasurementRefund}
  {activeAgents activeAgents' : List MeasurementAgent}

theorem window_same (ho : orders.Perm orders') (hr : refunds.Perm refunds') (asOf start : ℚ)
    (lifetime : Bool) : SameWindow (window orders refunds asOf start lifetime)
      (window orders' refunds' asOf start lifetime) := by
  refine ⟨?_, (ho.filter _).map _, (ho.filter _).map _, (ho.filter _).map _⟩
  simp only [window, ((ho.filter _).map _).sum_eq, ((hr.filter _).map _).sum_eq,
    (ho.filter _).length_eq, (hr.filter _).length_eq]

theorem activity_same (ho : orders.Perm orders') (ha : activeAgents.Perm activeAgents')
    (asOf todayStart fromTimestamp : ℚ) :
    let a := activity orders activeAgents asOf todayStart fromTimestamp
    let a' := activity orders' activeAgents' asOf todayStart fromTimestamp
    a' = { a with activeAgentIds := a'.activeAgentIds } ∧ a.activeAgentIds.Perm a'.activeAgentIds := by
  have hids := ha.map (·.agentId)
  have hcontains : ∀ id, (activeAgents'.map (·.agentId)).contains id =
      (activeAgents.map (·.agentId)).contains id := by
    intro id
    rw [Bool.eq_iff_iff, List.contains_iff_mem, List.contains_iff_mem, hids.mem_iff]
  refine ⟨?_, hids⟩
  have hunique : ∀ p : MeasurementSettlement → Bool,
      (unique ((orders.filter p).map (·.agentId))).Perm
        (unique ((orders'.filter p).map (·.agentId))) :=
    fun p => unique_perm ((ho.filter p).map _)
  simp only [activity, hcontains, (hunique _).length_eq, sorted_perm (hunique _), ha.length_eq]

end Figures

/-- The input with its unordered rows in another order. -/
structure Reordered (input input' : MeasurementInput) : Prop where
  rest : input' = { input with
    settlements := input'.settlements
    agents := input'.agents
    balances := input'.balances
    refunds := input'.refunds }
  settlements : input.settlements.Perm input'.settlements
  agents : input.agents.Perm input'.agents
  balances : input.balances.Perm input'.balances
  refunds : input.refunds.Perm input'.refunds

variable {input' : MeasurementInput} {agents agents' : List MeasurementAgent}
  {balanceMap balanceMap' : List Balance}

theorem report_same (h : Reordered input input') (hagents : agents.Perm agents')
    (hbalances : ∀ address, balanceOf balanceMap address = balanceOf balanceMap' address)
    (quotes : List MeasurementService) (prices : Prices) :
    SameFigures (report H localeCompare input agents balanceMap quotes prices)
      (report H localeCompare input' agents' balanceMap' quotes prices) := by
  obtain ⟨hrest, hsettlements, -, -, hinput⟩ := h
  have hasOf : input'.asOf = input.asOf := by rw [hrest]
  have hfrom : input'.fromTimestamp = input.fromTimestamp := by rw [hrest]
  have hnumber : input'.blockNumber = input.blockNumber := by rw [hrest]
  have hhash : input'.blockHash = input.blockHash := by rw [hrest]
  have horders : (ordersOf input).Perm (ordersOf input') := by
    rw [ordersOf, ordersOf, hasOf, hfrom]
    exact hsettlements.filter _
  -- The orders are the same, so the refunds are filtered by the same identifiers.
  have hrefunds : (refundsOf input).Perm (refundsOf input') := by
    have hids : ∀ id, ((ordersOf input').map (·.orderId)).contains id =
        ((ordersOf input).map (·.orderId)).contains id := by
      intro id
      rw [Bool.eq_iff_iff, List.contains_iff_mem, List.contains_iff_mem,
        (horders.map _).mem_iff]
    simp only [refundsOf, hasOf, hfrom, hids]
    exact hinput.filter _
  have hactive : (byId localeCompare (agents.filter (·.active))).Perm
      (byId localeCompare (agents'.filter (·.active))) :=
    (List.perm_insertionSort _ _).trans
      ((hagents.filter _).trans (List.perm_insertionSort _ _).symm)
  -- The executors are sorted, so their order in the input is forgotten.
  have hexecutors : executorBalances (byId localeCompare (agents'.filter (·.active))) balanceMap' =
      executorBalances (byId localeCompare (agents.filter (·.active))) balanceMap := by
    rw [executorBalances, executorBalances, sorted_perm (unique_perm (hactive.map _))]
    exact List.map_congr_left fun address _ => by rw [hbalances]
  obtain ⟨hactivity, hids⟩ := activity_same horders hactive input.asOf (dayStart input.asOf)
    input.fromTimestamp
  have htoday := window_same horders hrefunds input.asOf (dayStart input.asOf) false
  have hlifetime := window_same horders hrefunds input.asOf input.fromTimestamp true
  constructor
  · exact ⟨hasOf, hnumber, hhash⟩
  · simpa only [report, hasOf, hfrom] using htoday
  · simpa only [report, hasOf, hfrom] using hlifetime
  · simpa only [report, hasOf, hfrom] using hactivity
  · simpa only [report, hasOf, hfrom] using hids
  · simp only [report, hasOf, hfrom, hexecutors]
    rw [htoday.figures, hlifetime.figures]
    rfl
  · rfl
  · simp only [report, hasOf, hfrom, hnumber, hhash]
  · exact horders.map _
  · exact unique_perm ((horders.filterMap _).filter _)
  · exact hrefunds
  · exact (horders.filter _).map _
  · exact (horders.filter _).map _

/-- Both calls throw, or both return the same figures. -/
def SameOutcome (x y : Except JsError EconomyMeasurements) : Prop :=
  match x, y with
  | .ok m, .ok m' => SameFigures m m'
  | .error _, .error _ => True
  | _, _ => False

/-- A missing balance of an address beside two different known ones. -/
def Mixed (balances : List Balance) : Prop :=
  ∃ x ∈ balances, ∃ y ∈ balances, ∃ z ∈ balances, Conflict x y ∧ z.key = x.key ∧
    z.balanceAtomic = none

/-- Balances that are accepted in some order: none is negative, and two that conflict are beside a
missing one. -/
structure Balanced (balances : List Balance) : Prop where
  nonneg : ∀ b ∈ balances, ∀ n, b.balanceAtomic = some n → 0 ≤ n
  conflict : ∀ x ∈ balances, ∀ y ∈ balances, Conflict x y →
    ∃ z ∈ balances, z.key = y.key ∧ z.balanceAtomic = none

section Balances

variable {balances balances' : List Balance}

theorem Balanced.of_loop (h : balances.foldlM addBalance [] = .ok balances') : Balanced balances := by
  have hloop := Balances.empty.addAll h
  rw [List.nil_append] at hloop
  refine ⟨hloop.nonneg, fun x hx y hy hconflict => ?_⟩
  obtain ⟨hkey, n, m, hn, hm, hne⟩ := hconflict
  obtain ⟨w, hw, hwkey⟩ := hloop.keys y hy
  cases hvalue : w.balanceAtomic with
  | none =>
    obtain ⟨z, hz, hzkey, hnone⟩ := hloop.missing w hw hvalue
    exact ⟨z, hz, hzkey.trans hwkey, hnone⟩
  | some k =>
    have hall := (hloop.known w hw k hvalue).2
    have hxk := hall x hx (hkey.trans hwkey.symm)
    have hyk := hall y hy hwkey.symm
    rw [hn] at hxk
    rw [hm] at hyk
    exact absurd ((Option.some_inj.1 hxk).trans (Option.some_inj.1 hyk).symm) hne

/-- Without a missing balance in between, no two conflict. -/
theorem Balanced.loop (h : Balanced balances) (hmixed : ¬Mixed balances) :
    ∃ balances', balances.foldlM addBalance [] = .ok balances' := by
  refine Balances.empty.exists_addAll h.nonneg fun y hy x hx hconflict => ?_
  rw [List.nil_append] at hx
  obtain ⟨z, hz, hzkey, hnone⟩ := h.conflict x hx y hy hconflict
  exact absurd ⟨x, hx, y, hy, z, hz, hconflict, hzkey.trans hconflict.1.symm, hnone⟩ hmixed

/-- The missing balances first. -/
theorem Balanced.missing_first (h : Balanced balances) : ∃ balances',
    (balances.filter (·.balanceAtomic.isNone) ++ balances.filter fun b => !b.balanceAtomic.isNone).foldlM
      addBalance [] = .ok balances' := by
  have hmem : ∀ {b}, b ∈ balances.filter (·.balanceAtomic.isNone) → b ∈ balances ∧
      b.balanceAtomic = none := by
    intro b hb
    simpa using hb
  have hmissing : ∃ first, (balances.filter (·.balanceAtomic.isNone)).foldlM addBalance [] =
      .ok first :=
    Balances.empty.exists_addAll (fun b hb n hn => h.nonneg b (hmem hb).1 n hn)
      fun y hy x _ hconflict => by
        obtain ⟨-, n, m, -, hm, -⟩ := hconflict
        rw [(hmem hy).2] at hm
        exact absurd hm.symm (Option.some_ne_none m)
  obtain ⟨first, hfirst⟩ := hmissing
  have hloop := Balances.empty.addAll hfirst
  rw [List.nil_append] at hloop
  have hpresent : ∃ balances', (balances.filter fun b => !b.balanceAtomic.isNone).foldlM
      addBalance first = .ok balances' :=
    hloop.exists_addAll (fun b hb => h.nonneg b (List.mem_of_mem_filter hb))
      fun y hy x hx hconflict => by
        have hx : x ∈ balances := by
          rcases List.mem_append.1 hx with hx | hx <;> exact List.mem_of_mem_filter hx
        obtain ⟨z, hz, hzkey, hnone⟩ := h.conflict x hx y (List.mem_of_mem_filter hy) hconflict
        exact ⟨z, List.mem_filter.2 ⟨hz, by rw [hnone]; rfl⟩, hzkey, hnone⟩
  obtain ⟨balances', hrest⟩ := hpresent
  refine ⟨balances', ?_⟩
  rw [List.foldlM_append]
  exact bind_eq_ok.2 ⟨first, hfirst, hrest⟩

/-- Two that conflict first. -/
theorem conflict_first {x y : Balance} {rest : List Balance} (h : Conflict x y) :
    ¬∃ balances', (x :: y :: rest).foldlM addBalance [] = .ok balances' := by
  rintro ⟨balances', hloop⟩
  rw [List.foldlM_cons] at hloop
  obtain ⟨b₁, h₁, hloop⟩ := bind_eq_ok.1 hloop
  rw [List.foldlM_cons] at hloop
  obtain ⟨b₂, h₂, -⟩ := bind_eq_ok.1 hloop
  have hpair : [x, y].foldlM addBalance [] = .ok b₂ := by
    rw [List.foldlM_cons]
    exact bind_eq_ok.2 ⟨b₁, h₁, by rw [List.foldlM_cons]; exact bind_eq_ok.2 ⟨b₂, h₂, rfl⟩⟩
  obtain ⟨z, hz, -, hnone⟩ := (Balanced.of_loop hpair).conflict x (by simp) y (by simp) h
  obtain ⟨-, n, m, hn, hm, -⟩ := h
  rcases List.mem_pair.1 hz with rfl | rfl
  · exact Option.some_ne_none n (hn.symm.trans hnone)
  · exact Option.some_ne_none m (hm.symm.trans hnone)

theorem Balanced.perm (h : Balanced balances) (hperm : balances.Perm balances') :
    Balanced balances' := by
  refine ⟨fun b hb => h.nonneg b (hperm.mem_iff.2 hb), fun x hx y hy hconflict => ?_⟩
  obtain ⟨z, hz, hzkey⟩ := h.conflict x (hperm.mem_iff.2 hx) y (hperm.mem_iff.2 hy) hconflict
  exact ⟨z, hperm.mem_iff.1 hz, hzkey⟩

theorem Mixed.perm (h : Mixed balances) (hperm : balances.Perm balances') : Mixed balances' := by
  obtain ⟨x, hx, y, hy, z, hz, hconflict⟩ := h
  exact ⟨x, hperm.mem_iff.1 hx, y, hperm.mem_iff.1 hy, z, hperm.mem_iff.1 hz, hconflict⟩

end Balances

theorem Checked.reordered (h : Checked H input) (hinput : Reordered input input') :
    Checked H input' := by
  obtain ⟨hrest, hsettlements, hagents, -, hrefunds⟩ := hinput
  constructor
  · rw [hrest]
    exact h.snapshot
  · exact fun o ho => h.settlements o (hsettlements.mem_iff.2 ho)
  · exact (hsettlements.map _).nodup_iff.1 h.orderIds
  · exact fun r hr => h.refunds r (hrefunds.mem_iff.2 hr)
  · exact fun x hx y hy => h.agents x (hagents.mem_iff.2 hx) y (hagents.mem_iff.2 hy)
  · rw [hrest]
    exact h.services

theorem Reordered.symm (h : Reordered input input') : Reordered input' input where
  rest := by
    rw [h.rest]
  settlements := h.settlements.symm
  agents := h.agents.symm
  balances := h.balances.symm
  refunds := h.refunds.symm

/-- Calls that return for reordered inputs return the same figures. -/
theorem SameFigures.of_reordered {m' : EconomyMeasurements} (hinput : Reordered input input')
    (h : calculateMeasurements H localeCompare input = .ok m)
    (h' : calculateMeasurements H localeCompare input' = .ok m') : SameFigures m m' := by
  obtain ⟨-, agents, balanceMap, R, p, hagents, hbalances, hR, hp, rfl⟩ :=
    calculateMeasurements_iff.1 h
  obtain ⟨-, agents', balanceMap', R', p', hagents', hbalances', hR', hp', rfl⟩ :=
    calculateMeasurements_iff.1 h'
  have hasOf : input'.asOf = input.asOf := by rw [hinput.rest]
  have hservices : input'.services = input.services := by rw [hinput.rest]
  rw [hservices, hasOf, hR] at hR'
  cases hR'
  rw [hasOf, hp] at hp'
  cases hp'
  exact report_same hinput
    ((Agents.empty.addAll hagents).perm (Agents.empty.addAll hagents') hinput.agents)
    ((Balances.empty.addAll hbalances).balanceOf_eq (Balances.empty.addAll hbalances')
      hinput.balances) _ _

theorem SameOutcome.of_throw {x y : Except JsError EconomyMeasurements} (hx : ¬∃ m, x = .ok m)
    (hy : ¬∃ m, y = .ok m) : SameOutcome x y := by
  cases x with
  | ok m => exact absurd ⟨m, rfl⟩ hx
  | error e =>
    cases y with
    | ok m => exact absurd ⟨m, rfl⟩ hy
    | error e' => trivial

theorem SameOutcome.exists_iff {x y : Except JsError EconomyMeasurements} (h : SameOutcome x y) :
    (∃ m, x = .ok m) ↔ ∃ m, y = .ok m := by
  cases x <;> cases y <;> simp_all [SameOutcome]

/-- The input with other balances. -/
def MeasurementInput.withBalances (input : MeasurementInput) (balances : List Balance) :
    MeasurementInput :=
  { input with balances }

theorem reordered_balances {balances : List Balance} (h : input.balances.Perm balances) :
    Reordered input (input.withBalances balances) :=
  ⟨rfl, .refl _, .refl _, h, .refl _⟩

/-- The order of the rows does not matter, exactly unless everything is accepted in some order and
an address has a missing balance beside two different known ones. -/
theorem measurements_unordered_iff (H : Host) (localeCompare : JsString → JsString → ℤ)
    (input : MeasurementInput) :
    (∀ input', Reordered input input' →
      SameOutcome (calculateMeasurements H localeCompare input)
        (calculateMeasurements H localeCompare input')) ↔
      ¬(Checked H input ∧ Balanced input.balances ∧ Mixed input.balances) := by
  constructor
  · rintro hsame ⟨hchecked, hbalanced, x, hx, y, hy, z, -, hconflict, -⟩
    -- One order is accepted.
    have hfirst := reordered_balances (List.filter_append_perm (·.balanceAtomic.isNone)
      input.balances).symm
    have haccepted := (@exists_measurements H localeCompare _).2
      ⟨hchecked.reordered hfirst, hbalanced.missing_first⟩
    -- Another one is not.
    have hne : x ≠ y := by
      rintro rfl
      obtain ⟨-, n, m, hn, hm, hne⟩ := hconflict
      exact hne (Option.some_inj.1 (hn.symm.trans hm))
    obtain ⟨rest, hrest⟩ : ∃ rest, input.balances.Perm (x :: y :: rest) := by
      obtain ⟨front, back, hsplit⟩ := List.append_of_mem hx
      have hy' : y ∈ front ++ back := by
        rw [hsplit] at hy
        rcases List.mem_append.1 hy with hy | hy
        · exact List.mem_append_left _ hy
        · exact List.mem_append_right _ ((List.mem_cons.1 hy).resolve_left hne.symm)
      obtain ⟨front', back', hsplit'⟩ := List.append_of_mem hy'
      refine ⟨front' ++ back', ?_⟩
      rw [hsplit]
      refine List.perm_middle.trans (List.Perm.cons x ?_)
      rw [hsplit']
      exact List.perm_middle
    have hrefused : ¬∃ m, calculateMeasurements H localeCompare
        (input.withBalances (x :: y :: rest)) = .ok m := by
      intro h
      exact conflict_first hconflict (exists_measurements.1 h).2
    exact hrefused ((hsame _ (reordered_balances hrest)).exists_iff.1
      ((hsame _ hfirst).exists_iff.2 haccepted))
  · intro hnot input' hinput
    by_cases hloop : Checked H input ∧ Balanced input.balances
    · obtain ⟨hchecked, hbalanced⟩ := hloop
      have hmixed : ¬Mixed input.balances := fun hmixed => hnot ⟨hchecked, hbalanced, hmixed⟩
      have hmixed' : ¬Mixed input'.balances := fun hmixed' => hmixed (hmixed'.perm hinput.balances.symm)
      obtain ⟨m, hm⟩ := (@exists_measurements H localeCompare _).2
        ⟨hchecked, hbalanced.loop hmixed⟩
      obtain ⟨m', hm'⟩ := (@exists_measurements H localeCompare _).2
        ⟨hchecked.reordered hinput, (hbalanced.perm hinput.balances).loop hmixed'⟩
      rw [hm, hm']
      exact SameFigures.of_reordered hinput hm hm'
    · have hthrow : ∀ input', Reordered input input' →
          ¬∃ m, calculateMeasurements H localeCompare input' = .ok m := by
        intro input' hinput h
        obtain ⟨hchecked, balances', hbalances⟩ := exists_measurements.1 h
        exact hloop ⟨hchecked.reordered hinput.symm,
          (Balanced.of_loop hbalances).perm hinput.balances.symm⟩
      exact SameOutcome.of_throw (hthrow input ⟨rfl, .refl _, .refl _, .refl _, .refl _⟩)
        (hthrow input' hinput)

namespace Sample

/-- A balance of one wallet. -/
def reading (balanceAtomic : Option ℤ) : Balance := ⟨js "wallet", balanceAtomic⟩

/-- A snapshot without activity, with some balances of the wallet. -/
def readings (balances : List (Option ℤ)) : MeasurementInput :=
  (Sample.input [] 300000).withBalances (balances.map reading)

end Sample

open Sample in
/-- A missing balance hides that the balances before and after it conflict. -/
theorem conflict_hidden : ¬∀ (H : Host) (localeCompare : JsString → JsString → ℤ)
    (input input' : MeasurementInput), Reordered input input' →
      SameOutcome (calculateMeasurements H localeCompare input)
        (calculateMeasurements H localeCompare input') := by
  intro h
  have hsame := h .plain (fun _ _ => 0) (readings [some 5, none, some 7])
    (readings [some 5, some 7, none]) (reordered_balances (.cons _ (.swap _ _ _)))
  obtain ⟨m, hm, -⟩ := exists_ok
    (x := calculateMeasurements .plain (fun _ _ => 0) (readings [some 5, none, some 7]))
    (p := fun _ => true) (by decide +kernel)
  have hconflict : Conflict (reading (some 5)) (reading (some 7)) :=
    ⟨rfl, 5, 7, rfl, rfl, by decide⟩
  exact conflict_first hconflict (exists_measurements.1 (hsame.exists_iff.1 ⟨m, hm⟩)).2

end Measurements

end Obolos
