import Obolos.Economy.Measurements
import Mathlib.Tactic.Linarith

/-!
# The published price history is stable

What a later snapshot sees of the quotes is what an earlier one saw, with quotes appended that were
registered at or after the time of the earlier one (`Extends`).  The basket is found by position in
the earlier quotes, so it stays (`Extends.components`), and a day that was closed at the earlier
snapshot reads quotes of the earlier snapshot only (`Extends.closedDay`).
-/

namespace Obolos

namespace Measurements

variable {H : Host} {q q' rest : List MeasurementService} {t : ℚ} {s f : MeasurementService}

/-! ### The registered services -/

/-- The services by their hash, the first of each. -/
def firsts (seen services : List MeasurementService) : List MeasurementService :=
  services.foldl (fun seen s =>
    if seen.any fun x => x.serviceHash = s.serviceHash then seen else seen ++ [s]) seen

theorem firsts_append (seen services : List MeasurementService) :
    ∃ rest, firsts seen services = seen ++ rest ∧ ∀ s ∈ rest, s ∈ services := by
  induction services generalizing seen with
  | nil => exact ⟨[], (List.append_nil _).symm, fun _ h => h⟩
  | cons s services ih =>
    rw [firsts, List.foldl_cons, ← firsts]
    split
    · obtain ⟨rest, heq, hmem⟩ := ih seen
      exact ⟨rest, heq, fun x hx => List.mem_cons_of_mem _ (hmem x hx)⟩
    · obtain ⟨rest, heq, hmem⟩ := ih (seen ++ [s])
      refine ⟨s :: rest, by rw [heq, List.append_assoc, List.singleton_append], fun x hx => ?_⟩
      rcases List.mem_cons.1 hx with rfl | hx
      · exact List.mem_cons_self
      · exact List.mem_cons_of_mem _ (hmem x hx)

/-- What the loop over the services has kept when these were the first of each hash. -/
structure RegisteredAs (asOf : ℚ) (seen : List MeasurementService) (R : Registered) : Prop where
  keys : R.seen.map Prod.fst = seen.map (·.serviceHash)
  services : R.services = seen.filter fun s => decide (s.registeredAt ≤ asOf)

theorem RegisteredAs.isSome {asOf : ℚ} {seen : List MeasurementService} {R : Registered}
    (h : RegisteredAs asOf seen R) (hash : JsString) :
    ((R.seen.find? fun p => p.1 = hash).map Prod.snd).isSome =
      seen.any fun x => x.serviceHash = hash := by
  rw [Option.isSome_map, Bool.eq_iff_iff, List.find?_isSome, List.any_eq_true]
  have hmem : hash ∈ R.seen.map Prod.fst ↔ hash ∈ seen.map (·.serviceHash) := by rw [h.keys]
  simp only [List.mem_map] at hmem
  simpa using hmem

theorem RegisteredAs.register {asOf : ℚ} {R R' : Registered} {seen : List MeasurementService}
    (hR : RegisteredAs asOf seen R) (h : register H asOf R s = .ok R') :
    RegisteredAs asOf (firsts seen [s]) R' := by
  unfold Measurements.register at h
  simp only [JsError.raise, JsError.throwIf_eq_ok, bind_eq_ok] at h
  obtain ⟨-, -, -, -, -, -, -, -, h⟩ := h
  rw [← Except.ok.inj h]
  have hsome := hR.isSome s.serviceHash
  rw [firsts, List.foldl_cons, List.foldl_nil, ← hsome]
  by_cases hprior : ((R.seen.find? fun p => p.1 = s.serviceHash).map Prod.snd).isSome
  · rw [if_pos hprior]
    refine ⟨?_, ?_⟩
    · simp only [if_pos hprior, hR.keys]
    · have hnone : ((R.seen.find? fun p => p.1 = s.serviceHash).map Prod.snd).isNone = false := by
        rw [← Option.not_isSome, hprior]
        rfl
      simp only [hnone, Bool.false_and, Bool.false_eq_true, ↓reduceIte]
      exact hR.services
  · rw [if_neg hprior]
    have hnone : ((R.seen.find? fun p => p.1 = s.serviceHash).map Prod.snd).isNone = true := by
      rw [← Option.not_isSome, Bool.eq_false_of_not_eq_true hprior]
      rfl
    refine ⟨?_, ?_⟩
    · simp only [if_neg hprior, List.map_append, hR.keys, List.map_cons, List.map_nil]
    · simp only [hnone, Bool.true_and, decide_eq_true_eq, List.filter_append, hR.services,
        List.filter_cons, List.filter_nil]
      split
      · rfl
      · rw [List.append_nil]

/-- What is left of the services after the loop. -/
theorem RegisteredAs.foldlM {asOf : ℚ} {R R' : Registered} {seen services : List MeasurementService}
    (hR : RegisteredAs asOf seen R)
    (h : services.foldlM (Measurements.register H asOf) R = .ok R') :
    RegisteredAs asOf (firsts seen services) R' := by
  induction services generalizing R seen with
  | nil =>
    rw [← Except.ok.inj h]
    exact hR
  | cons s services ih =>
    rw [List.foldlM_cons] at h
    obtain ⟨R₁, hs, h⟩ := bind_eq_ok.1 h
    exact ih (hR.register hs) h

/-! ### Later quotes -/

/-- The later quotes `q'` are the quotes `q` and quotes registered at or after the time `t`. -/
structure Extends (t : ℚ) (q q' : List MeasurementService) : Prop where
  quotes : ∃ rest, q' = q ++ rest ∧ ∀ s ∈ rest, t ≤ s.registeredAt

/-- **What a later snapshot sees of the quotes.** -/
theorem extends_quotes {asOf asOf' : ℚ} {services extension : List MeasurementService}
    (hlater : ∀ s ∈ extension, asOf ≤ s.registeredAt) (hasOf : asOf ≤ asOf') {R R' : Registered}
    (h : services.foldlM (register H asOf) ⟨[], []⟩ = .ok R)
    (h' : (services ++ extension).foldlM (register H asOf') ⟨[], []⟩ = .ok R') :
    Extends asOf (quotes R.services) (quotes R'.services) := by
  have hR := RegisteredAs.foldlM (show RegisteredAs asOf [] ⟨[], []⟩ from ⟨rfl, rfl⟩) h
  have hR' := RegisteredAs.foldlM (show RegisteredAs asOf' [] ⟨[], []⟩ from ⟨rfl, rfl⟩) h'
  obtain ⟨more, hmore, hmem⟩ := firsts_append (firsts [] services) extension
  have hfirsts : firsts [] (services ++ extension) = firsts [] services ++ more := by
    rw [← hmore, firsts, List.foldl_append]
    rfl
  rw [hR.services, hR'.services, hfirsts, List.filter_append, quotes, quotes, sortBy_of_index,
    sortBy_of_index]
  have hfilter : (firsts [] services).filter (fun s => decide (s.registeredAt ≤ asOf)) =
      ((firsts [] services).filter fun s => decide (s.registeredAt ≤ asOf')).filter
        fun s => decide (s.registeredAt ≤ asOf) := by
    rw [List.filter_filter]
    refine List.filter_congr fun s _ => ?_
    by_cases hs : s.registeredAt ≤ asOf
    · simp [hs, hs.trans hasOf]
    · simp [hs]
  rw [hfilter]
  exact ⟨isPrefix_sortBy fun s hs => hlater s (hmem s (List.mem_of_mem_filter hs))⟩

/-! ### The basket -/

theorem mem_missing {c : JsString} :
    c ∈ missingCategories q ↔ c ∈ resourceCategories ∧ ∀ s ∈ q, s.category ≠ c := by
  simp [missingCategories]

theorem complete_iff : complete q ↔ ∀ c ∈ resourceCategories, ∃ s ∈ q, s.category = c := by
  rw [complete, List.isEmpty_iff, List.eq_nil_iff_forall_not_mem]
  refine forall_congr' fun c => ?_
  rw [mem_missing]
  push Not
  rfl

theorem families_append (h : complete q) (rest : List MeasurementService) :
    families (q ++ rest) = families q := by
  refine List.map_congr_left fun c hc => ?_
  obtain ⟨s, hs, hsc⟩ := complete_iff.1 h c hc
  have hfind : (q.find? fun s => s.category = c).isSome :=
    List.find?_isSome.2 ⟨s, hs, decide_eq_true hsc⟩
  rw [List.find?_append, Option.or_of_isSome hfind]

theorem mem_families (h : some f ∈ families q) : f ∈ q := by
  obtain ⟨c, -, hfind⟩ := List.mem_map.1 h
  exact List.mem_of_find?_eq_some hfind

theorem mem_filterMap_families (h : f ∈ (families q).filterMap id) : some f ∈ families q := by
  obtain ⟨x, hx, rfl⟩ := List.mem_filterMap.1 h
  exact hx

theorem complete_append (h : complete q) (rest : List MeasurementService) :
    complete (q ++ rest) = true := by
  refine complete_iff.2 fun c hc => ?_
  obtain ⟨s, hs, hsc⟩ := complete_iff.1 h c hc
  exact ⟨s, List.mem_append_left _ hs, hsc⟩

theorem le_foldl_max {l : List ℕ} {n m : ℕ} : n ≤ l.foldl max m ↔ n ≤ m ∨ ∃ k ∈ l, n ≤ k := by
  induction l generalizing m with
  | nil => simp
  | cons k l ih => simp [ih, or_assoc]

theorem baselinePosition_append (h : complete q) (rest : List MeasurementService) :
    baselinePosition (q ++ rest) = baselinePosition q := by
  unfold baselinePosition
  rw [families_append h]
  congr 1
  refine List.filterMap_congr fun family hfamily => ?_
  cases family with
  | none => rfl
  | some f => exact congrArg some (List.idxOf_append_of_mem (mem_families hfamily))

theorem baselinePosition_lt (h : complete q) : baselinePosition q < q.length := by
  obtain ⟨s, hs, -⟩ := complete_iff.1 h (js "data") List.mem_cons_self
  have hlength : 0 < q.length := List.length_pos_of_mem hs
  by_contra hle
  rcases le_foldl_max.1 (not_lt.1 hle) with hzero | ⟨k, hk, hle⟩
  · omega
  · obtain ⟨family, hfamily, hk⟩ := List.mem_filterMap.1 hk
    obtain ⟨f, rfl, rfl⟩ := Option.map_eq_some_iff.1 hk
    exact absurd (List.idxOf_lt_length_of_mem (mem_families hfamily)) (not_lt.2 hle)

theorem baselineAt_append (h : complete q) (rest : List MeasurementService) :
    baselineAt (q ++ rest) = baselineAt q := by
  unfold baselineAt
  rw [complete_append h, h, if_pos rfl, if_pos rfl, baselinePosition_append h,
    List.getElem?_append_left (baselinePosition_lt h)]

theorem baseline_append (h : complete q) (rest : List MeasurementService) :
    baseline (q ++ rest) f = baseline q f := by
  unfold baseline
  rw [complete_append h, h, if_pos rfl, if_pos rfl, baselinePosition_append h,
    List.take_append_of_le_length (baselinePosition_lt h)]

/-- A basket that was not complete becomes complete with a later quote. -/
theorem Extends.le_baselineAt (hext : Extends t q q') (h : ¬ complete q) {time : ℚ}
    (htime : baselineAt q' = some time) : t ≤ time := by
  obtain ⟨rest, rfl, hrest⟩ := hext.quotes
  unfold baselineAt at htime
  split_ifs at htime with hcomplete
  obtain ⟨c, hc, hnone⟩ : ∃ c ∈ resourceCategories, ∀ s ∈ q, s.category ≠ c := by
    rw [complete_iff] at h
    push Not at h
    exact h
  obtain ⟨s, hs, hsc⟩ := complete_iff.1 hcomplete c hc
  obtain ⟨f, hf⟩ := Option.isSome_iff_exists.1
    (List.find?_isSome (p := fun s : MeasurementService => s.category = c).2
      ⟨s, hs, decide_eq_true hsc⟩)
  have hfamily : some f ∈ families (q ++ rest) := List.mem_map.2 ⟨c, hc, hf⟩
  have hfq : f ∉ q := fun hmem => hnone f hmem (by simpa using List.find?_some hf)
  have hposition : q.length ≤ baselinePosition (q ++ rest) := by
    refine le_foldl_max.2 (Or.inr ⟨_, List.mem_filterMap.2 ⟨_, hfamily, rfl⟩, ?_⟩)
    show q.length ≤ (q ++ rest).idxOf f
    rw [List.idxOf_append_of_notMem hfq]
    exact Nat.le_add_right _ _
  rw [List.getElem?_append_right hposition] at htime
  obtain ⟨x, hx, rfl⟩ := Option.map_eq_some_iff.1 htime
  exact hrest x (List.mem_of_getElem? hx)

/-! ### Components -/

/-- The same component up to the current quote. -/
def SameBaseline (c c' : MeasurementPriceComponent) : Prop :=
  c' = { c with
    currentServiceHash := c'.currentServiceHash
    currentTransactionHash := c'.currentTransactionHash
    currentAtomic := c'.currentAtomic
    currentRegisteredAt := c'.currentRegisteredAt }

theorem component_sameBaseline {asOf asOf' : ℚ} {c c' : MeasurementPriceComponent}
    (hbaseline : baseline q' f = baseline q f) (h : component q asOf f = .ok c)
    (h' : component q' asOf' f = .ok c') : SameBaseline c c' := by
  unfold component at h h'
  simp only [bind_eq_ok, hbaseline] at h h'
  obtain ⟨current, -, quantity, hquantity, atomic, hatomic, price, -, h⟩ := h
  obtain ⟨current', -, quantity', hquantity', atomic', hatomic', price', -, h'⟩ := h'
  rw [hquantity] at hquantity'
  rw [hatomic] at hatomic'
  cases hquantity'
  cases hatomic'
  rw [← Except.ok.inj h, ← Except.ok.inj h']
  rfl

theorem mapM_forall₂ {α β : Type} {r : β → β → Prop} {g g' : α → Except JsError β} {l : List α}
    {bs bs' : List β} (hr : ∀ a ∈ l, ∀ b b', g a = .ok b → g' a = .ok b' → r b b')
    (h : l.mapM g = .ok bs) (h' : l.mapM g' = .ok bs') : List.Forall₂ r bs bs' := by
  induction l generalizing bs bs' with
  | nil =>
    rw [List.mapM_nil] at h h'
    rw [← Except.ok.inj h, ← Except.ok.inj h']
    exact List.Forall₂.nil
  | cons a l ih =>
    rw [List.mapM_cons] at h h'
    simp only [bind_eq_ok] at h h'
    obtain ⟨b, hb, bs₁, hbs, h⟩ := h
    obtain ⟨b', hb', bs₁', hbs', h'⟩ := h'
    rw [← Except.ok.inj h, ← Except.ok.inj h']
    exact List.Forall₂.cons (hr a List.mem_cons_self b b' hb hb')
      (ih (fun x hx => hr x (List.mem_cons_of_mem _ hx)) hbs hbs')

/-- **The baselines of a complete basket stay.** -/
theorem components_sameBaseline {asOf asOf' : ℚ} {cs cs' : List MeasurementPriceComponent}
    (hcomplete : complete q) (h : components q asOf = .ok cs)
    (h' : components (q ++ rest) asOf' = .ok cs') : List.Forall₂ SameBaseline cs cs' := by
  unfold components at h h'
  rw [families_append hcomplete] at h'
  exact mapM_forall₂ (fun f _ c c' => component_sameBaseline (baseline_append hcomplete rest)) h h'

theorem priceIndex_sameBaseline {cs cs' : List MeasurementPriceComponent}
    (h : List.Forall₂ SameBaseline cs cs') (current : List ℤ) :
    priceIndex cs' current = priceIndex cs current := by
  have hterms : (cs'.zip current).mapM (fun p => indexTerm p.1.baselineAtomic p.1.weightBps p.2) =
      (cs.zip current).mapM fun p => indexTerm p.1.baselineAtomic p.1.weightBps p.2 := by
    induction h generalizing current with
    | nil => rfl
    | cons hc _ ih =>
      cases current with
      | nil => rfl
      | cons price current =>
        rw [List.zip_cons_cons, List.zip_cons_cons, List.mapM_cons, List.mapM_cons, ih, hc]
  rw [priceIndex, priceIndex, hterms]

theorem basketDigest_sameBaseline {cs cs' : List MeasurementPriceComponent}
    (h : List.Forall₂ SameBaseline cs cs') (time : Option ℚ) :
    basketDigest H time cs' = basketDigest H time cs := by
  have hjson : cs'.map MeasurementPriceComponent.json = cs.map MeasurementPriceComponent.json := by
    induction h with
    | nil => rfl
    | cons hc _ ih =>
      rw [List.map_cons, List.map_cons, ih, hc]
      rfl
  rw [basketDigest, basketDigest, hjson]

/-! ### Closed days -/

theorem latestBefore_append {time : ℚ} (hrest : ∀ s ∈ rest, time ≤ s.registeredAt) :
    latestBefore (q ++ rest) f time = latestBefore q f time := by
  unfold latestBefore
  have hnil : rest.filter (fun s => comparable s f && decide (s.registeredAt < time)) = [] := by
    refine List.filter_eq_nil_iff.2 fun s hs => ?_
    simp [hrest s hs]
  rw [List.filter_append, hnil, List.append_nil]

theorem dayStart_le (time : ℚ) : dayStart time ≤ time := by
  have hday : (0 : ℚ) < daySeconds := by norm_num [daySeconds]
  unfold dayStart
  calc ((time / daySeconds).floor : ℚ) * daySeconds
      ≤ time / daySeconds * daySeconds := mul_le_mul_of_nonneg_right (Rat.floor_le _) hday.le
    _ = time := div_mul_cancel₀ _ hday.ne'

/-- **A day that was closed at the earlier snapshot stays as it was reported.** -/
theorem Extends.closedDay {cs cs' : List MeasurementPriceComponent} {time : ℚ}
    (hext : Extends t q q') (htime : time ≤ t)
    (hsame : complete q → List.Forall₂ SameBaseline cs cs') :
    closedDay q' cs' time = closedDay q cs time := by
  obtain ⟨rest, rfl, hrest⟩ := id hext.quotes
  by_cases hcomplete : complete q
  · have hlatest : ∀ f, latestBefore (q ++ rest) f time = latestBefore q f time := fun f =>
      latestBefore_append fun s hs => htime.trans (hrest s hs)
    unfold Measurements.closedDay
    rw [baselineAt_append hcomplete]
    simp only [families_append hcomplete, hlatest, priceIndex_sameBaseline (hsame hcomplete)]
  · have hnone : baselineAt q = none := if_neg hcomplete
    unfold Measurements.closedDay
    rw [hnone]
    cases hbaseline : baselineAt (q ++ rest) with
    | none => rfl
    | some start =>
      have hle := hext.le_baselineAt hcomplete hbaseline
      have hstart : time - daySeconds ≤ start := by
        have hday : (0 : ℚ) ≤ daySeconds := by norm_num [daySeconds]
        linarith
      simp [hstart]

/-- The times of the reported day. -/
theorem closedDay_times {cs : List MeasurementPriceComponent} {time : ℚ}
    {day : MeasurementPriceSnapshot} (h : closedDay q cs time = .ok (some day)) :
    day.start = time - daySeconds ∧ day.endExclusive = time := by
  unfold closedDay at h
  cases hbaseline : baselineAt q with
  | none =>
    rw [hbaseline] at h
    cases h
  | some start =>
    rw [hbaseline] at h
    simp only at h
    split at h
    · cases h
    · simp only [bind_eq_ok] at h
      obtain ⟨_, -, _, -, _, -, h⟩ := h
      cases h
      exact ⟨rfl, rfl⟩

/-! ### Snapshots -/

/-- The closed days a snapshot reports. -/
def Prices.closedDays (p : Prices) : List MeasurementPriceSnapshot :=
  p.priorClosedDay.toList ++ p.precedingClosedDay.toList

/-- What a later snapshot of the prices leaves as it was. -/
structure Prices.Stable (p p' : Prices) : Prop where
  complete : p.complete → p'.complete ∧ p'.baselineAt = p.baselineAt ∧ p'.basketId = p.basketId ∧
    List.Forall₂ SameBaseline p.components p'.components
  closedDays : ∀ day ∈ p.closedDays, ∀ day' ∈ p'.closedDays, day.start = day'.start → day' = day

theorem prices_ok {asOf : ℚ} {p : Prices} (h : prices H q asOf = .ok p) :
    components q asOf = .ok p.components ∧
      closedDay q p.components (dayStart asOf) = .ok p.priorClosedDay ∧
      closedDay q p.components (dayStart asOf - daySeconds) = .ok p.precedingClosedDay ∧
      p.complete = complete q ∧ p.baselineAt = baselineAt q ∧
      p.basketId =
        if complete q then some (basketDigest H (baselineAt q) p.components) else none := by
  unfold prices at h
  simp only [bind_eq_ok] at h
  obtain ⟨cs, hcs, index, -, prior, hprior, preceding, hpreceding, h⟩ := h
  cases h
  exact ⟨hcs, hprior, hpreceding, rfl, rfl, rfl⟩

/-- Both reported days end by the start of the day. -/
theorem closedDays_ok {asOf : ℚ} {p : Prices} (h : prices H q asOf = .ok p)
    {day : MeasurementPriceSnapshot} (hday : day ∈ p.closedDays) :
    day.endExclusive ≤ dayStart asOf ∧ day.start = day.endExclusive - daySeconds ∧
      closedDay q p.components day.endExclusive = .ok (some day) := by
  obtain ⟨-, hprior, hpreceding, -⟩ := prices_ok h
  have hpos : (0 : ℚ) ≤ daySeconds := by norm_num [daySeconds]
  rcases List.mem_append.1 hday with hday | hday
  · rw [Option.mem_toList] at hday
    rw [hday] at hprior
    obtain ⟨hstart, hend⟩ := closedDay_times hprior
    rw [hend]
    exact ⟨le_rfl, hstart, hprior⟩
  · rw [Option.mem_toList] at hday
    rw [hday] at hpreceding
    obtain ⟨hstart, hend⟩ := closedDay_times hpreceding
    rw [hend]
    exact ⟨by linarith, hstart, hpreceding⟩

theorem Extends.prices {asOf' : ℚ} {p p' : Prices} (hext : Extends t q q')
    (h : Measurements.prices H q t = .ok p) (h' : Measurements.prices H q' asOf' = .ok p') :
    p.Stable p' ∧
      (dayStart asOf' = dayStart t + daySeconds → p'.precedingClosedDay = p.priorClosedDay) := by
  obtain ⟨hcs, hprior, -, hcomplete, hbaseline, hbasket⟩ := prices_ok h
  obtain ⟨hcs', -, hpreceding', hcomplete', hbaseline', hbasket'⟩ := prices_ok h'
  have hsame : complete q → List.Forall₂ SameBaseline p.components p'.components := by
    intro hq
    obtain ⟨rest, rfl, -⟩ := hext.quotes
    exact components_sameBaseline hq hcs hcs'
  refine ⟨⟨fun hp => ?_, fun day hday day' hday' hstart => ?_⟩, fun hnext => ?_⟩
  · rw [hcomplete] at hp
    obtain ⟨rest, rfl, -⟩ := id hext.quotes
    refine ⟨hcomplete'.trans (complete_append hp rest), ?_, ?_, hsame hp⟩
    · rw [hbaseline', hbaseline, baselineAt_append hp]
    · rw [hbasket', hbasket, baselineAt_append hp, complete_append hp, hp,
        basketDigest_sameBaseline (hsame hp)]
  · obtain ⟨hle, hstart₁, hok⟩ := closedDays_ok h hday
    obtain ⟨-, hstart₂, hok'⟩ := closedDays_ok h' hday'
    have hend : day'.endExclusive = day.endExclusive := by linarith
    rw [hend, hext.closedDay (hle.trans (dayStart_le t)) hsame, hok] at hok'
    exact (Option.some.inj (Except.ok.inj hok')).symm
  · have hend : dayStart asOf' - daySeconds = dayStart t := by rw [hnext, add_sub_cancel_right]
    rw [hend, hext.closedDay (dayStart_le t) hsame, hprior] at hpreceding'
    exact (Except.ok.inj hpreceding').symm

theorem calculateMeasurements_ok {localeCompare : JsString → JsString → ℤ}
    {input : MeasurementInput} {m : EconomyMeasurements}
    (h : calculateMeasurements H localeCompare input = .ok m) :
    ∃ R, input.services.foldlM (register H input.asOf) ⟨[], []⟩ = .ok R ∧
      prices H (quotes R.services) input.asOf = .ok m.prices := by
  unfold calculateMeasurements at h
  simp only [JsError.raise, JsError.throwIf_eq_ok, bind_eq_ok] at h
  obtain ⟨-, _, -, _, -, _, -, _, -, R, hR, p, hp, h⟩ := h
  cases h
  exact ⟨R, hR, hp⟩

/-- **The published price history is stable.**  The later snapshot has the same services and more,
registered at or after the time of the earlier one; everything else of the inputs is arbitrary. -/
theorem calculateMeasurements_stable {localeCompare : JsString → JsString → ℤ}
    {earlier later : MeasurementInput} {extension : List MeasurementService}
    {m m' : EconomyMeasurements} (hservices : later.services = earlier.services ++ extension)
    (hlater : ∀ s ∈ extension, earlier.asOf ≤ s.registeredAt) (hasOf : earlier.asOf ≤ later.asOf)
    (h : calculateMeasurements H localeCompare earlier = .ok m)
    (h' : calculateMeasurements H localeCompare later = .ok m') :
    m.prices.Stable m'.prices ∧ (dayStart later.asOf = dayStart earlier.asOf + daySeconds →
      m'.prices.precedingClosedDay = m.prices.priorClosedDay) := by
  obtain ⟨R, hR, hp⟩ := calculateMeasurements_ok h
  obtain ⟨R', hR', hp'⟩ := calculateMeasurements_ok h'
  rw [hservices] at hR'
  exact (extends_quotes hlater hasOf hR hR').prices hp hp'

namespace Sample

def service (hash category : JsString) (unitPrice : ℤ) (registeredAt : ℚ) : MeasurementService where
  serviceHash := hash
  seller := js "seller"
  category
  unitHash := js "unit"
  quantity := .text (js "2")
  unitPrice := .bigint unitPrice
  endpointHash := js "endpoint"
  registeredAt
  transactionHash := js "transaction"

/-- One quote of every category, on the day before the last one. -/
def services : List MeasurementService :=
  resourceCategories.map fun category => service category category 100 100000

/-- A dearer quote of the next day. -/
def dearer : MeasurementService := service (js "dearer") (js "compute") 300 300000

def input (services : List MeasurementService) (asOf : ℚ) : MeasurementInput where
  settlements := []
  services
  agents := []
  balances := []
  asOf
  blockNumber := js "123"
  blockHash := js "hash"
  fromTimestamp := 0
  refunds := []

def measure (services : List MeasurementService) (asOf : ℚ) : Except JsError EconomyMeasurements :=
  calculateMeasurements .plain (fun _ _ => 0) (input services asOf)

end Sample

theorem exists_ok {α : Type} {x : Except JsError α} {p : α → Bool} (h : x.toOption.any p = true) :
    ∃ a, x = .ok a ∧ p a = true := by
  cases x with
  | error e => cases h
  | ok a => exact ⟨a, rfl, h⟩

open Sample in
/-- A quote of the next day leaves the basket and the closed day as they were. -/
theorem calculateMeasurements_stable_sample :
    ∃ m m', measure services 300000 = .ok m ∧ measure (services ++ [dearer]) 350000 = .ok m' ∧
      m.prices.complete = true ∧ m.prices.priorClosedDay.isSome = true ∧
      m.prices.indexBps = some 10000 ∧ m'.prices.indexBps = some 14000 ∧
      m.prices.Stable m'.prices ∧ m'.prices.precedingClosedDay = m.prices.priorClosedDay := by
  obtain ⟨m, hm, hearlier⟩ := exists_ok (x := measure services 300000)
    (p := fun m => m.prices.complete && m.prices.priorClosedDay.isSome &&
      decide (m.prices.indexBps = some 10000)) (by decide +kernel)
  obtain ⟨m', hm', hlater⟩ := exists_ok (x := measure (services ++ [dearer]) 350000)
    (p := fun m => decide (m.prices.indexBps = some 14000)) (by decide +kernel)
  simp only [Bool.and_eq_true, decide_eq_true_eq] at hearlier hlater
  obtain ⟨hstable, hnext⟩ := calculateMeasurements_stable
    (show (input (services ++ [dearer]) 350000).services = (input services 300000).services ++ _
      from rfl) (by decide +kernel) (by decide +kernel) hm hm'
  exact ⟨m, m', hm, hm', hearlier.1.1, hearlier.1.2, hearlier.2, hlater, hstable,
    hnext (by decide +kernel)⟩

end Measurements

end Obolos
