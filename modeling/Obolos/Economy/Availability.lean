import Obolos.Economy.Catalog
import Obolos.Economy.Collection
import Obolos.Economy.ExecutorState
import Obolos.Economy.KeyOrder
import Obolos.Js.Bytes
import Obolos.Js.Parse
import Obolos.Tasks.Availability

/-!
# When a published service can be bought

Planning (`updateRunnerTask` of `platform/tasks.ts`, and the task runner) and the last check before a
payment (`assertActiveService` of `executor-live.ts`) look a service up in the answer of
`listEconomyServices`.  `available_iff` : an active service can be planned and ordered exactly as long
as at most `100` active services, itself among them, are at least as new, and the answer fits into
the bound of the client.  Other sellers can move it out of the answer (`crowded_out`).
-/

namespace Obolos

namespace Catalog

open Executor (ExecutorInput)
open Marketplace (EconomyDeployment)
open Tasks (Resolves Spares findService createTaskPlan readPlan)

variable (H : Host) (readNumber : JsString → Option Json)

/-! ### The two lookups -/

/-- The service belongs to the deployment. -/
def OfDeployment (deployment : EconomyDeployment) (service : ServiceDefinition) : Prop :=
  service.settlementAddress = deployment.settlement ∧ service.ledgerAddress = deployment.ledger

instance decidableOfDeployment (deployment : EconomyDeployment) (service : ServiceDefinition) :
    Decidable (OfDeployment deployment service) := inferInstanceAs (Decidable (_ ∧ _))

/-- The catalog of `updateRunnerTask`: the listed services of the deployment. -/
def serverCatalog (deployment : EconomyDeployment) (services : List ServiceDefinition) :
    List Json :=
  (services.filter fun service => OfDeployment deployment service).map ServiceDefinition.json

/-- The catalog of the task runner: the listed services. -/
def runnerCatalog (services : List ServiceDefinition) : List Json :=
  services.map ServiceDefinition.json

/-- The body of the answer of `GET /api/economy/services`. -/
def catalogBody (services : List ServiceDefinition) : JsString :=
  Json.stringify H.numerals
    (.obj [(js "protocol", .str (js serviceProtocol)), (js "services", .arr (runnerCatalog services))])

/-- The bound on an answer. -/
def bodyLimit : ℕ := 512 * 1024

/-- `api('/api/economy/services', undefined, false)` for an answer with this body. -/
def readCatalog (body : JsString) : Except JsError Json :=
  if body.utf8Length > bodyLimit then JsError.raise "Platform response too large."
  else
    match Json.parse readNumber body with
    | some x => .ok x
    | none => JsError.raise "Invalid platform JSON."

/-- `assertActiveService(input)` for an answer with this body. -/
def assertActiveService (input : ExecutorInput) (body : JsString) : Except JsError Unit := do
  let catalog ← readCatalog readNumber body
  let services := ((catalog.prop "services").bind Json.asArr).getD []
  match services.filter fun value =>
      (value.prop "serviceHash").bind Json.asStr = some input.serviceHash.text with
  | [value] => do
    let service ← ServiceDefinition.validate H value
    if (← service.json.canonicalJsonHash H) ≠ (← input.definition.json.canonicalJsonHash H) then
      JsError.raise "Exact active service definition unavailable."
  | _ => JsError.raise "Exact active service definition unavailable."

/-! ### Available services -/

/-- No plan is rejected because it names the service: neither by the server nor by the runner, if
all other services it names are in the catalog. -/
def Plannable (d : CatalogDb) (deployment : EconomyDeployment) (service : ServiceDefinition) :
    Prop :=
  ∀ services, ListsServices H d services →
    ∀ catalog ∈ [serverCatalog deployment services, runnerCatalog services],
      ∀ value summary raw budget, readPlan value = .ok (summary, raw) →
        (∀ step ∈ raw, step.serviceHash.toLowerCase = service.serviceHash.text ∨
          Resolves H catalog step.serviceHash) →
        Spares (createTaskPlan H value catalog budget)

/-- Every order for the service passes the last check before its payment.  The definition of an
order has been hashed before. -/
def Orderable (d : CatalogDb) (service : ServiceDefinition) : Prop :=
  ∀ services, ListsServices H d services →
    ∀ input : ExecutorInput, input.serviceHash = service.serviceHash →
      service.Same input.definition → input.definition.Distinct →
      (∃ a, input.definition.json.canonicalJsonHash H = .ok a) →
      assertActiveService H readNumber input (catalogBody H services) = .ok ()

variable {H readNumber}

/-! ### Finding a service -/

theorem prop_serviceHash (service : ServiceDefinition) :
    service.json.prop "serviceHash" = some (.str service.serviceHash.text) := by
  simp [Json.prop, ServiceDefinition.json, ServiceTerms.fields, Json.asObj, Json.get, js_inj]

theorem text_eq {a b : Bytes32} : a.text = b.text ↔ a = b := by
  constructor
  · intro h
    have hread := congrArg readBytes32 h
    rw [readBytes32_text, readBytes32_text] at hread
    exact Option.some.inj hread
  · rintro rfl
    rfl

/-- `find` on the definitions of a catalog. -/
theorem findService_json {hash : Bytes32} {text : JsString} (ht : text.toLowerCase = hash.text)
    (services : List ServiceDefinition) :
    findService text (services.map ServiceDefinition.json) =
      .ok ((services.find? fun service => service.serviceHash = hash).map
        ServiceDefinition.json) := by
  induction services with
  | nil => rfl
  | cons service services ih =>
    simp only [List.map_cons, findService, prop_serviceHash, Bytes32.toLowerCase_text, ht, text_eq]
    by_cases h : service.serviceHash = hash
    · simp [h]
    · simp [h, ih]

/-- In a list with different hashes, a service is the one with its hash. -/
theorem filter_serviceHash {services : List ServiceDefinition}
    (hnodup : (services.map fun s => s.serviceHash).Nodup) {service : ServiceDefinition}
    (h : service ∈ services) :
    (services.filter fun s => s.serviceHash = service.serviceHash) = [service] := by
  obtain ⟨l, r, rfl⟩ := List.append_of_mem h
  simp only [List.map_append, List.map_cons] at hnodup
  have hmiddle := List.nodup_cons.1 (List.perm_middle.nodup_iff.1 hnodup)
  have hne : ∀ s ∈ l ++ r, s.serviceHash ≠ service.serviceHash := by
    intro s hs heq
    refine hmiddle.1 ?_
    rw [← List.map_append, ← heq]
    exact List.mem_map_of_mem hs
  rw [List.filter_append, List.filter_cons_of_pos (by simp)]
  have hl : (l.filter fun s => decide (s.serviceHash = service.serviceHash)) = [] := by
    refine List.filter_eq_nil_iff.2 fun s hs => ?_
    simpa using hne s (List.mem_append_left _ hs)
  have hr : (r.filter fun s => decide (s.serviceHash = service.serviceHash)) = [] := by
    refine List.filter_eq_nil_iff.2 fun s hs => ?_
    simpa using hne s (List.mem_append_right _ hs)
  rw [hl, hr]
  rfl

theorem find_serviceHash {services : List ServiceDefinition}
    (hnodup : (services.map fun s => s.serviceHash).Nodup) {service : ServiceDefinition}
    (h : service ∈ services) :
    (services.find? fun s => s.serviceHash = service.serviceHash) = some service := by
  rw [← List.head?_filter, filter_serviceHash hnodup h]
  rfl

/-! ### What a listing contains -/

section Listings

variable {d : CatalogDb} {row : ServiceRow} {service : ServiceDefinition}
  {services : List ServiceDefinition}

/-- A listed service has a row of its own. -/
theorem hashes_of_listed {rows : List ServiceRow} (h : List.Forall₂ (Stored H) rows services) :
    (services.map fun s => s.serviceHash) = rows.map ServiceRow.serviceHash := by
  induction h with
  | nil => rfl
  | cons hstored _ ih => rw [List.map_cons, List.map_cons, hstored.serviceHash, ih]

theorem stored_of_listed {rows : List ServiceRow} (h : List.Forall₂ (Stored H) rows services) :
    (∀ row ∈ rows, ∃ s ∈ services, Stored H row s) ∧
      ∀ s ∈ services, ∃ row ∈ rows, Stored H row s := by
  induction h with
  | nil => exact ⟨fun _ h => (by cases h), fun _ h => (by cases h)⟩
  | @cons r s rows services hstored _ ih =>
    refine ⟨fun row hrow => ?_, fun x hx => ?_⟩
    · rcases List.mem_cons.1 hrow with rfl | hrow
      · exact ⟨s, List.mem_cons_self, hstored⟩
      · obtain ⟨x, hx, hstored'⟩ := ih.1 row hrow
        exact ⟨x, List.mem_cons_of_mem _ hx, hstored'⟩
    · rcases List.mem_cons.1 hx with rfl | hx
      · exact ⟨r, List.mem_cons_self, hstored⟩
      · obtain ⟨row, hrow, hstored'⟩ := ih.2 x hx
        exact ⟨row, List.mem_cons_of_mem _ hrow, hstored'⟩

/-- What a listing of a valid table looks like. -/
structure Listed (H : Host) (d : CatalogDb) (services : List ServiceDefinition) : Prop where
  nodup : (services.map fun s => s.serviceHash).Nodup
  stored : ∀ s ∈ services, ∃ row ∈ active d, Stored H row s

theorem listed_of_lists (hd : Published H d) (h : ListsServices H d services) :
    Listed H d services := by
  obtain ⟨rows, hlists, hall⟩ := (listsServices_iff hd).1 h
  refine ⟨?_, fun s hs => ?_⟩
  · rw [hashes_of_listed hall]
    obtain ⟨r, hperm, -, rfl⟩ := hlists
    have hactive : ((active d).map ServiceRow.serviceHash).Nodup :=
      hd.nodup.sublist (List.Sublist.map _ List.filter_sublist)
    have hr : (r.map ServiceRow.serviceHash).Nodup := (hperm.map _).nodup_iff.2 hactive
    exact hr.sublist (List.Sublist.map _ (List.take_sublist _ _))
  · obtain ⟨row, hrow, hstored⟩ := (stored_of_listed hall).2 s hs
    exact ⟨row, Listing.subset_of_lists hlists row hrow, hstored⟩

/-- A definition with the hash of the row is the definition of the row. -/
theorem Listed.eq (hd : Published H d) (h : Listed H d services) (hrow : row ∈ active d)
    (hstored : Stored H row service) {s : ServiceDefinition} (hs : s ∈ services)
    (hhash : s.serviceHash = service.serviceHash) : s = service := by
  obtain ⟨row', hrow', hstored'⟩ := h.stored s hs
  have heq : row' = row := by
    refine row_eq hd (mem_services_of_active hrow') (mem_services_of_active hrow) ?_
    rw [← hstored'.serviceHash, hhash, hstored.serviceHash]
  subst heq
  exact Except.ok.inj (hstored'.parsed.symm.trans hstored.parsed)

/-- A service is in every answer exactly when its rank is within the limit. -/
theorem listed_iff (hd : Published H d) (hrow : row ∈ active d) (hstored : Stored H row service) :
    (∀ services, ListsServices H d services → service ∈ services) ↔
      Listing.rank ServiceRow.createdAt row (active d) ≤ catalogLimit := by
  rw [← Listing.mem_of_lists_iff (active_nodup hd) hrow]
  constructor
  · intro h rows hlists
    have hrows : ∀ r ∈ rows, ∃ s, Stored H r s := by
      intro r hr
      exact hd.stored r (mem_services_of_active (Listing.subset_of_lists hlists r hr))
    obtain ⟨services, hmap, hall⟩ := mapM_services hrows
    obtain ⟨r, hr, hstored'⟩ := (stored_of_listed hall).2 service (h services ⟨rows, hlists, hmap⟩)
    have heq : r = row := by
      refine row_eq hd (mem_services_of_active (Listing.subset_of_lists hlists r hr))
        (mem_services_of_active hrow) ?_
      rw [← hstored'.serviceHash, hstored.serviceHash]
    exact heq ▸ hr
  · intro h services hlists
    obtain ⟨rows, hrows, hall⟩ := (listsServices_iff hd).1 hlists
    obtain ⟨s, hs, hstored'⟩ := (stored_of_listed hall).1 row (h rows hrows)
    rwa [Except.ok.inj (hstored.parsed.symm.trans hstored'.parsed)]

/-! ### Plans -/

/-- A valid definition, as it is listed. -/
theorem Stored.parsedTerms (hlower : ∀ a : Address, H.isAddress a.text = true)
    (h : Stored H row service) : service.Parsed H :=
  ServiceDefinition.parsed_of_parse hlower h.parsed

theorem Stored.validate_json (hlower : ∀ a : Address, H.isAddress a.text = true)
    (h : Stored H row service) : ServiceDefinition.validate H service.json = .ok service := by
  simp only [ServiceDefinition.validate, bind_eq_ok, pure_eq_ok]
  exact ⟨service, ServiceDefinition.parse_json (h.parsedTerms hlower), (), h.valid, rfl⟩

/-- A listed service of the deployment is found by both. -/
theorem resolves_of_mem (hlower : ∀ a : Address, H.isAddress a.text = true)
    (h : Listed H d services) (hstored : Stored H row service) (hmem : service ∈ services)
    {deployment : EconomyDeployment} (hdeployment : OfDeployment deployment service)
    {text : JsString} (ht : text.toLowerCase = service.serviceHash.text) :
    ∀ catalog ∈ [serverCatalog deployment services, runnerCatalog services],
      Resolves H catalog text := by
  have hvalid := hstored.validate_json hlower
  simp only [List.forall_mem_cons, List.not_mem_nil, false_imp_iff, implies_true, and_true]
  constructor
  · refine ⟨service.json, service, ?_, hvalid⟩
    rw [serverCatalog, findService_json ht, find_serviceHash]
    · rfl
    · exact h.nodup.sublist (List.Sublist.map _ List.filter_sublist)
    · exact List.mem_filter.2 ⟨hmem, decide_eq_true hdeployment⟩
  · refine ⟨service.json, service, ?_, hvalid⟩
    rw [runnerCatalog, findService_json ht, find_serviceHash h.nodup hmem]
    rfl

/-- A plan with one step for the service. -/
def planFor (hash : Bytes32) : Json :=
  .obj [(js "summary", .str (js "x")),
    (js "steps", .arr [.obj [(js "serviceHash", .str hash.text), (js "input", .null)]])]

theorem readPlan_planFor (hash : Bytes32) :
    readPlan (planFor hash) = .ok (js "x", [⟨hash.text, .null⟩]) := by
  have htrim : (js "x").trim = js "x" := by decide
  have hlength : (js "x").length = 1 := by decide
  simp [readPlan, planFor, Json.strictFields, Json.textField, Json.field, Json.get, Json.asStr,
    Json.asArr, js_inj, Tasks.readStep, readBytes32_text, bind, Except.bind, pure, Except.pure,
    htrim, hlength]

theorem hash_planFor (hash : Bytes32) : ∃ a, (planFor hash).canonicalJsonHash H = .ok a := by
  have htext := Json.canonicalSize_str (N := H.numerals) hash.text
  have hlength : hash.text.length = 66 := by
    simp [Bytes32.text, JsString.hex_length, js, charUnits]
  refine ⟨_, Json.canonicalJsonHash_ok.2 ⟨?_, rfl⟩⟩
  simp only [Json.assertJson, JsError.raise, bind_eq_ok, JsError.throwIf_end, not_lt]
  refine ⟨(), ?_, ?_⟩
  · simp [planFor, Json.visit, js, charUnits]
  · show Json.canonicalSize H.numerals (planFor hash) ≤ _
    have hx := Json.canonicalSize_str (N := H.numerals) (js "x")
    have hnull : Json.canonicalSize H.numerals .null = 4 := rfl
    have h₁ : (js "summary").quote.utf8Length = 9 := by decide +kernel
    have h₂ : (js "steps").quote.utf8Length = 7 := by decide +kernel
    have h₃ : (js "serviceHash").quote.utf8Length = 13 := by decide +kernel
    have h₄ : (js "input").quote.utf8Length = 7 := by decide +kernel
    have hone : (js "x").length = 1 := by decide
    simp only [planFor, Json.canonicalSize_obj, Json.canonicalSize_arr, Json.fieldSize,
      List.map_cons, List.map_nil, List.sum_cons, List.sum_nil, h₁, h₂, h₃, h₄, hnull]
    omega

/-- A service can be planned exactly when it is in every answer. -/
theorem plannable_iff (hlower : ∀ a : Address, H.isAddress a.text = true) (hd : Published H d)
    (hrow : row ∈ active d) (hstored : Stored H row service) {deployment : EconomyDeployment}
    (hdeployment : OfDeployment deployment service) :
    Plannable H d deployment service ↔
      Listing.rank ServiceRow.createdAt row (active d) ≤ catalogLimit := by
  rw [← listed_iff hd hrow hstored]
  constructor
  · intro h services hlists
    by_contra hmem
    have hlisted := listed_of_lists hd hlists
    obtain ⟨a, ha⟩ := hash_planFor (H := H) service.serviceHash
    have hspares := h services hlists (serverCatalog deployment services) List.mem_cons_self
      (planFor service.serviceHash) _ _ (js "1") (readPlan_planFor _)
      (by simp [Bytes32.toLowerCase_text])
    refine hspares Tasks.unavailable ?_ rfl
    have hbudget : Tasks.readBudget (js "1") = .ok 1 := rfl
    refine Tasks.createTaskPlan_unavailable (readPlan_planFor _) hbudget ha ?_
    rw [serverCatalog, findService_json (Bytes32.toLowerCase_text _)]
    have hnone : (services.filter fun s => OfDeployment deployment s).find?
        (fun s => s.serviceHash = service.serviceHash) = none := by
      refine List.find?_eq_none.2 fun s hs heq => hmem ?_
      have hs := (List.mem_filter.1 hs).1
      rwa [← hlisted.eq hd hrow hstored hs (of_decide_eq_true heq)]
    rw [hnone]
    rfl
  · intro h services hlists catalog hcatalog value summary raw budget hread hsteps
    refine Tasks.createTaskPlan_spares hread fun step hstep => ?_
    rcases hsteps step hstep with hname | hresolves
    · exact resolves_of_mem hlower (listed_of_lists hd hlists) hstored (h services hlists)
        hdeployment hname catalog hcatalog
    · exact hresolves

/-! ### Orders -/

/-- Fields with the same keys and the same values are the same object. -/
theorem same_obj {fields fields' : List (JsString × Json)}
    (h : List.Forall₂ (fun a b => a.1 = b.1 ∧ Json.Same a.2 b.2) fields fields') :
    Json.Same (.obj fields) (.obj fields') := by
  refine .obj fun key => ?_
  induction h with
  | nil => exact .none
  | @cons a b fields fields' hab _ ih =>
    obtain ⟨k, x⟩ := a
    obtain ⟨k', y⟩ := b
    obtain ⟨rfl, hxy⟩ := hab
    by_cases hk : k = key
    · simp only [Json.get, hk, ↓reduceIte]
      exact .some hxy
    · simpa only [Json.get, hk, ↓reduceIte] using ih

/-- The same definitions are the same values. -/
theorem same_json {service' : ServiceDefinition} (h : service.Same service') :
    Json.Same service.json service'.json := by
  rw [← h.fields]
  refine same_obj ?_
  simp only [ServiceTerms.fields, List.cons_append, List.nil_append]
  refine .cons ⟨rfl, .num _⟩ <| .cons ⟨rfl, .str _⟩ <| .cons ⟨rfl, .str _⟩ <|
    .cons ⟨rfl, .str _⟩ <| .cons ⟨rfl, .str _⟩ <| .cons ⟨rfl, .str _⟩ <| .cons ⟨rfl, .str _⟩ <|
    .cons ⟨rfl, .str _⟩ <| .cons ⟨rfl, .str _⟩ <| .cons ⟨rfl, h.inputSchema⟩ <|
    .cons ⟨rfl, h.outputSchema⟩ <| .cons ⟨rfl, .str _⟩ <| .cons ⟨rfl, .str _⟩ .nil

/-- The client reads the answer back when it is small enough. -/
theorem readCatalog_ok (hlower : ∀ a : Address, H.isAddress a.text = true)
    (hread : ∀ q, readNumber (H.numerals.text q) = some (.num q)) (h : Listed H d services) :
    readCatalog readNumber (catalogBody H services) =
      if (catalogBody H services).utf8Length > bodyLimit then
        JsError.raise "Platform response too large."
      else .ok (.obj [(js "protocol", .str (js serviceProtocol)),
        (js "services", .arr (runnerCatalog services))]) := by
  have hservice : ∀ x ∈ runnerCatalog services, x.Distinct ∧ x.finite = true := by
    intro x hx
    obtain ⟨s, hs, rfl⟩ := List.mem_map.1 hx
    obtain ⟨row, -, hstored⟩ := h.stored s hs
    exact ⟨ServiceDefinition.distinct_json hstored.schemas,
      ServiceDefinition.finite_json hstored.schemas (hstored.parsedTerms hlower)⟩
  have hdistinct : (Json.obj [(js "protocol", .str (js serviceProtocol)),
      (js "services", .arr (runnerCatalog services))]).Distinct := by
    refine .obj (by simp [js_inj]) ?_
    simp only [List.forall_mem_cons, List.not_mem_nil, false_imp_iff, implies_true, and_true]
    exact ⟨.str _, .arr fun x hx => (hservice x hx).1⟩
  have hfinite : (Json.obj [(js "protocol", .str (js serviceProtocol)),
      (js "services", .arr (runnerCatalog services))]).finite = true := by
    have hitems := Json.finiteItems_of_forall fun x hx => (hservice x hx).2
    simp [Json.finite, Json.finiteFields, hitems]
  rw [readCatalog]
  have hparse := Json.parse_stringify hread hdistinct hfinite
  rw [show catalogBody H services = Json.stringify H.numerals _ from rfl, hparse]

/-- The entries of the catalog with the hash of an order. -/
theorem filter_runnerCatalog (services : List ServiceDefinition) (hash : Bytes32) :
    ((runnerCatalog services).filter fun value =>
      (value.prop "serviceHash").bind Json.asStr = some hash.text) =
      runnerCatalog (services.filter fun s => s.serviceHash = hash) := by
  rw [runnerCatalog, List.filter_map]
  refine congrArg (List.map ServiceDefinition.json) (List.filter_congr fun s _ => ?_)
  simp [prop_serviceHash, Json.asStr, text_eq]

/-- The last check accepts a listed service and refuses every other one. -/
theorem assertActiveService_iff (hlower : ∀ a : Address, H.isAddress a.text = true)
    (hread : ∀ q, readNumber (H.numerals.text q) = some (.num q)) (hd : Published H d)
    (h : Listed H d services) (hrow : row ∈ active d) (hstored : Stored H row service)
    {input : ExecutorInput} (hinput : input.serviceHash = service.serviceHash)
    (hsame : service.Same input.definition) (hdistinct : input.definition.Distinct) {a : Bytes32}
    (ha : input.definition.json.canonicalJsonHash H = .ok a) :
    assertActiveService H readNumber input (catalogBody H services) = .ok () ↔
      service ∈ services ∧ (catalogBody H services).utf8Length ≤ bodyLimit := by
  unfold assertActiveService
  rw [readCatalog_ok hlower hread h]
  by_cases hsize : (catalogBody H services).utf8Length > bodyLimit
  · rw [if_pos hsize]
    constructor
    · intro hok
      cases hok
    · rintro ⟨-, hle⟩
      omega
  · rw [if_neg hsize]
    have hservices : ((Json.obj [(js "protocol", .str (js serviceProtocol)),
        (js "services", .arr (runnerCatalog services))]).prop "services").bind Json.asArr =
          some (runnerCatalog services) := by
      simp [Json.prop, Json.asObj, Json.get, Json.asArr, js_inj]
    simp only [bind, Except.bind, hservices, Option.getD_some, hinput, filter_runnerCatalog]
    by_cases hmem : service ∈ services
    · rw [filter_serviceHash h.nodup hmem]
      have hashed : service.json.canonicalJsonHash H = .ok a := by
        have hdistinct' := ServiceDefinition.distinct_json hstored.schemas
        have hsame' := same_json hsame
        exact Json.canonicalJsonHash_same (ServiceDefinition.distinct_json hdistinct) hdistinct'
          (hsame'.symm hdistinct' (ServiceDefinition.distinct_json hdistinct)) ha
      simp only [runnerCatalog, List.map_cons, List.map_nil, hstored.validate_json hlower, hashed,
        ha, ne_eq, not_true_eq_false, ↓reduceIte]
      exact iff_of_true rfl ⟨hmem, by omega⟩
    · have hnone : (services.filter fun s => s.serviceHash = service.serviceHash) = [] := by
        refine List.filter_eq_nil_iff.2 fun s hs heq => hmem ?_
        rwa [← h.eq hd hrow hstored hs (of_decide_eq_true heq)]
      rw [hnone]
      refine iff_of_false ?_ fun hboth => hmem hboth.1
      intro hok
      cases hok

/-- An order for a service, as far as the last check looks at it. -/
def orderFor (service : ServiceDefinition) : ExecutorInput where
  origin := []
  platformAgentId := []
  orderId := 1
  owner := 0
  payer := 0
  definition := service
  serviceHash := service.serviceHash
  input := .null
  maxAmountAtomic := 1
  expiry := 1

/-- A service can be ordered exactly when it is in every answer and every answer is small enough. -/
theorem orderable_iff (hlower : ∀ a : Address, H.isAddress a.text = true)
    (hread : ∀ q, readNumber (H.numerals.text q) = some (.num q)) (hd : Published H d)
    (hrow : row ∈ active d) (hstored : Stored H row service) {a : Bytes32}
    (ha : service.json.canonicalJsonHash H = .ok a) :
    Orderable H readNumber d service ↔
      Listing.rank ServiceRow.createdAt row (active d) ≤ catalogLimit ∧
      ∀ services, ListsServices H d services →
        (catalogBody H services).utf8Length ≤ bodyLimit := by
  rw [← listed_iff hd hrow hstored, ← forall₂_and]
  refine forall₂_congr fun services hlists => ?_
  have hlisted := listed_of_lists hd hlists
  constructor
  · intro h
    have hself : service.Same service :=
      ⟨rfl, .refl hstored.schemas.1, .refl hstored.schemas.2⟩
    have hinput : (orderFor service).serviceHash = service.serviceHash := rfl
    have haccepted := h (orderFor service) hinput hself hstored.schemas ⟨a, ha⟩
    exact (assertActiveService_iff hlower hread hd hlisted hrow hstored hinput hself
      hstored.schemas ha).1 haccepted
  · rintro h input hinput hsame hdistinct ⟨b, hb⟩
    exact (assertActiveService_iff hlower hread hd hlisted hrow hstored hinput hsame hdistinct
      hb).2 h

/-- Without a hash of its definition there is no order for a service. -/
theorem orderable_of_not_hashed (hstored : Stored H row service)
    (h : ∀ a, service.json.canonicalJsonHash H ≠ .ok a) : Orderable H readNumber d service := by
  rintro services - input - hsame hdistinct ⟨a, ha⟩
  have hdistinct' := ServiceDefinition.distinct_json hstored.schemas
  refine absurd ?_ (h a)
  exact Json.canonicalJsonHash_same (ServiceDefinition.distinct_json hdistinct) hdistinct'
    ((same_json hsame).symm hdistinct' (ServiceDefinition.distinct_json hdistinct)) ha

/-- **When a published service can be bought.**  After every sequence of publications and
retirements, for every service of the deployment that is not retired: no plan is rejected because it
names the service, and every order for it passes the last check, exactly when at most `100` services
that are not retired, itself among them, are at least as new, and every answer of the catalog fits
into `512` KiB (this matters only if the definition is small enough to be hashed for an order). -/
theorem available_iff (hlower : ∀ a : Address, H.isAddress a.text = true)
    (hread : ∀ q, readNumber (H.numerals.text q) = some (.num q)) {J : Jsonb}
    {validateUrl : JsString → Except ApiError Unit} {τ : List (Tr CatalogDb Op)}
    (hrun : (lts H J validateUrl).Run .empty τ d) (hrow : row ∈ active d)
    (hservice : publicEconomyService H row = .ok service) {deployment : EconomyDeployment}
    (hdeployment : OfDeployment deployment service) :
    Plannable H d deployment service ∧ Orderable H readNumber d service ↔
      Listing.rank ServiceRow.createdAt row (active d) ≤ catalogLimit ∧
      ((∃ a, service.json.canonicalJsonHash H = .ok a) →
        ∀ services, ListsServices H d services →
          (catalogBody H services).utf8Length ≤ bodyLimit) := by
  have hd := published_run hlower hrun
  obtain ⟨service', hstored⟩ := hd.stored row (mem_services_of_active hrow)
  obtain rfl : service' = service := Except.ok.inj (hstored.parsed.symm.trans hservice)
  rw [plannable_iff hlower hd hrow hstored hdeployment]
  refine and_congr_right fun hrank => ?_
  by_cases hhash : ∃ a, service'.json.canonicalJsonHash H = .ok a
  · obtain ⟨a, ha⟩ := hhash
    rw [orderable_iff hlower hread hd hrow hstored ha]
    exact ⟨fun h _ => h.2, fun h => ⟨hrank, h ⟨a, ha⟩⟩⟩
  · refine iff_of_true (orderable_of_not_hashed hstored fun a ha => hhash ⟨a, ha⟩) fun h => ?_
    exact absurd h hhash

end Listings

/-! ### Crowded out -/

namespace Demo

open Obolos.Demo (schema)

/-- A host whose hash tells the services below apart. -/
def host : Host :=
  { Obolos.Demo.host with wordsHash := fun ws => BitVec.ofNat 256 (ws.getD 5 0) }

/-- The deployment of the services. -/
def deployment : EconomyDeployment := ⟨7, 21⟩

/-- The seller of the first service, and the one of all others. -/
def seller (i : ℕ) : Address := if i = 0 then 6 else 8

/-- The service with `i + 1` jobs. -/
def service (i : ℕ) : ServiceDefinition where
  settlementAddress := 7
  ledgerAddress := 21
  seller := seller i
  endpoint := js "https://a"
  category := .verification
  unit := js "verification-job"
  quantity := i + 1
  unitPriceAtomic := 12
  inputSchema := schema
  outputSchema := schema
  serviceHash := BitVec.ofNat 256 (i + 1)

/-- The row of the service, published at time `i`. -/
def row (i : ℕ) : ServiceRow := ⟨BitVec.ofNat 256 (i + 1), js "u", (service i).json, i⟩

/-- The table with the first `n` services. -/
def db : ℕ → CatalogDb
  | 0 => .empty
  | n + 1 => { db n with services := row n :: (db n).services }

/-- The request that publishes a service. -/
def publish (i : ℕ) : Op :=
  .createEconomyService (some deployment) ⟨js "u", (seller i).text⟩ (service i).json
    ((service i).onchain host) i

/-- Every endpoint is allowed. -/
def validateUrl (_ : JsString) : Except ApiError Unit := .ok ()

/-- The publications of the first `n` services. -/
def publications : ℕ → List (Tr CatalogDb Op)
  | 0 => []
  | n + 1 => publications n ++ [⟨db n, publish n, db (n + 1)⟩]

theorem parsed (i : ℕ) : (service i).Parsed host := by
  have hunit : 1 ≤ (js "verification-job").length ∧ (js "verification-job").length ≤ 80 := by decide
  have hschema : schema.isSchema host = true := by decide +kernel
  exact ⟨rfl, rfl, rfl, rfl, hunit.1, hunit.2, Nat.succ_pos i, (by decide : 0 < 12), hschema,
    hschema⟩

theorem valid {i : ℕ} (h : i < 2 ^ 200) : (service i).check host = .ok () := by
  have hunit : js "verification-job" ∈ ResourceCategory.verification.normalizedUnits := by decide
  refine ServiceDefinition.check_ok.2 ⟨hunit, rfl, ?_, (by decide : 12 < 2 ^ 256), rfl⟩
  show i + 1 < 2 ^ 256
  omega

theorem schemas (i : ℕ) : (service i).Distinct := by
  have h : schema.Distinct := .obj (by simp) (by simp [Json.Distinct.str])
  exact ⟨h, h⟩

theorem stored {i : ℕ} (h : i < 2 ^ 200) : Stored host (row i) (service i) where
  distinct := ServiceDefinition.distinct_json (schemas i)
  parsed := ServiceDefinition.parse_json (parsed i)
  valid := valid h
  schemas := schemas i
  serviceHash := rfl

theorem mem_db {n : ℕ} {r : ServiceRow} (h : r ∈ (db n).services) : ∃ i < n, r = row i := by
  induction n with
  | zero => cases h
  | succ n ih =>
    rcases List.mem_cons.1 h with rfl | h
    · exact ⟨n, Nat.lt_succ_self n, rfl⟩
    · obtain ⟨i, hi, rfl⟩ := ih h
      exact ⟨i, Nat.lt_succ_of_lt hi, rfl⟩

theorem row_mem {i n : ℕ} (h : i < n) : row i ∈ (db n).services := by
  induction n with
  | zero => omega
  | succ n ih =>
    by_cases hi : i = n
    · subst hi
      exact List.mem_cons_self
    · exact List.mem_cons_of_mem _ (ih (by omega))

theorem new_hash {n : ℕ} (h : n < 2 ^ 200) : (db n).service (BitVec.ofNat 256 (n + 1)) = none := by
  refine List.find?_eq_none.2 fun r hr => ?_
  obtain ⟨i, hi, rfl⟩ := mem_db hr
  intro heq
  have hnat := congrArg BitVec.toNat (of_decide_eq_true heq)
  simp only [row] at hnat
  rw [BitVec.toNat_ofNat, BitVec.toNat_ofNat, Nat.mod_eq_of_lt (by omega),
    Nat.mod_eq_of_lt (by omega)] at hnat
  omega

theorem exec_publish {n : ℕ} (h : n < 2 ^ 200) :
    exec host Marketplace.Demo.column validateUrl (db n) (publish n) = .ok (db (n + 1)) := by
  have hvalid := (stored h).validate_json fun _ => rfl
  have hseller : (seller n).text = (seller n).text.toLowerCase := by
    unfold seller
    split <;> decide
  have hnew := new_hash h
  simp only [exec, publish, createEconomyService, hvalid, ApiError.lift, Except.mapError,
    validateUrl, bind, Except.bind]
  rw [if_neg (not_not.2 (show (service n).seller.text = _ from hseller)), if_neg (by
    simp [service, deployment]), if_neg (by simp)]
  simp only [insertService, show (service n).serviceHash = BitVec.ofNat 256 (n + 1) from rfl, hnew,
    show Marketplace.Demo.column.store (service n).json = some (service n).json from rfl]
  rfl

theorem publications_run {n : ℕ} (h : n ≤ 2 ^ 200) :
    (lts host Marketplace.Demo.column validateUrl).Run .empty (publications n) (db n) := by
  induction n with
  | zero => exact .nil _
  | succ n ih =>
    refine (ih (by omega)).snoc ⟨ServiceDefinition.distinct_json (schemas n), ?_⟩
    rw [exec_publish (by omega)]

theorem active_db (n : ℕ) : active (db n) = (db n).services := by
  have hnone : (db n).retirements = [] := by
    induction n with
    | zero => rfl
    | succ n ih => exact ih
  rw [active, hnone]
  exact List.filter_eq_self.2 fun _ _ => rfl

/-- The first service is older than all others. -/
theorem rank_db (n : ℕ) :
    Listing.rank ServiceRow.createdAt (row 0) (active (db n)) = n := by
  rw [active_db, Listing.rank]
  induction n with
  | zero => rfl
  | succ n ih =>
    show List.countP _ (row n :: (db n).services) = n + 1
    rw [List.countP_cons, ih]
    rfl

theorem read_numbers (q : ℚ) : Json.readPlain (host.numerals.text q) = some (.num q) :=
  Json.readPlain_text q

theorem active_first {n : ℕ} (h : 0 < n) : row 0 ∈ active (db n) := by
  rw [active_db]
  exact row_mem h

/-- The definitions of the first hundred services are small. -/
theorem size_service {i : ℕ} (h : i < 100) :
    Json.size host.numerals (service i).json ≤ 4000 := by
  -- What is not the seller, the quantity or the hash is as in the first service.
  let front := (service 0).fields.take 3
  let middle := ((service 0).fields.drop 4).take 3
  let back := (service 0).fields.drop 8 ++ [(js "protocol", .str (js serviceProtocol))]
  have hfields : (service i).json = .obj (front ++ (js "seller", .str (seller i).text) :: middle ++
      (js "quantity", .str (JsString.decimal (i + 1))) :: back ++
      [(js "serviceHash", .str (Bytes32.text (BitVec.ofNat 256 (i + 1))))]) := rfl
  have hfixed : ((front ++ middle ++ back).map (Json.fieldSize (Json.size host.numerals))).sum ≤
      1000 := by
    decide +kernel
  have hseller := Json.fieldSize_str (N := host.numerals) (js "seller") (seller i).text
  have hquantity :=
    Json.fieldSize_str (N := host.numerals) (js "quantity") (JsString.decimal (i + 1))
  have hhash := Json.fieldSize_str (N := host.numerals) (js "serviceHash")
    (Bytes32.text (BitVec.ofNat 256 (i + 1)))
  have hdigits : ∀ n < 100, (JsString.decimal (n + 1)).length ≤ 3 := by decide +kernel
  have hlength : (js "seller").length = 6 ∧ (js "quantity").length = 8 ∧
      (js "serviceHash").length = 11 := by decide
  have haddress : (seller i).text.length = 42 := by
    simp [Address.text, JsString.hex_length, js, charUnits]
  have hbytes : (Bytes32.text (BitVec.ofNat 256 (i + 1))).length = 66 := by
    simp [Bytes32.text, JsString.hex_length, js, charUnits]
  rw [hlength.1, haddress] at hseller
  rw [hlength.2.1] at hquantity
  rw [hlength.2.2, hbytes] at hhash
  have hnumber := hdigits i h
  rw [hfields, Json.size_obj]
  simp only [List.map_append, List.sum_append, List.map_cons, List.sum_cons, List.map_nil,
    List.sum_nil] at hfixed ⊢
  omega

/-- A full list of these services fits into an answer. -/
theorem body_le {services : List ServiceDefinition} (h : ListsServices host (db 100) services) :
    (catalogBody host services).utf8Length ≤ bodyLimit := by
  have hd : Published host (db 100) :=
    published_run (fun _ => rfl) (publications_run (n := 100) (by decide))
  obtain ⟨rows, hlists, hall⟩ := (listsServices_iff hd).1 h
  have hlength : services.length ≤ 100 := by
    rw [← hall.length_eq]
    obtain ⟨r, -, -, rfl⟩ := hlists
    exact List.length_take_le _ _
  have hsize : ∀ n ∈ (runnerCatalog services).map fun x => Json.size host.numerals x + 1,
      n ≤ 4001 := by
    intro n hn
    obtain ⟨x, hx, rfl⟩ := List.mem_map.1 hn
    obtain ⟨s, hs, rfl⟩ := List.mem_map.1 hx
    obtain ⟨r, hr, hstored⟩ := (stored_of_listed hall).2 s hs
    have hmem := Listing.subset_of_lists hlists r hr
    rw [active_db] at hmem
    obtain ⟨i, hi, rfl⟩ := mem_db hmem
    obtain rfl : s = service i :=
      Except.ok.inj (hstored.parsed.symm.trans (stored (hi.trans (by decide))).parsed)
    exact Nat.succ_le_succ (size_service hi)
  have hsum := List.sum_le_card_nsmul _ 4001 hsize
  rw [List.length_map, runnerCatalog, List.length_map] at hsum
  change _ ≤ services.length * 4001 at hsum
  have hprotocol := Json.fieldSize_str (N := host.numerals) (js "protocol") (js serviceProtocol)
  have hkeys : 18 * ((js "protocol").length + (js serviceProtocol).length) + 14 ≤ 1000 ∧
      (js "services").quote.utf8Length = 10 := by decide +kernel
  show Json.size host.numerals _ ≤ 512 * 1024
  rw [Json.size_obj, List.map_cons, List.map_singleton, List.sum_cons, List.sum_singleton,
    Json.fieldSize.eq_def _ (js "services", _), Json.size_arr, hkeys.2, runnerCatalog]
  omega

end Demo

/-- While there are a hundred services, the first one can be planned and ordered. -/
theorem available_hundredth :
    Plannable Demo.host (Demo.db 100) Demo.deployment (Demo.service 0) ∧
      Orderable Demo.host Json.readPlain (Demo.db 100) (Demo.service 0) := by
  refine (available_iff (fun _ => rfl) Demo.read_numbers (Demo.publications_run (by decide))
    (Demo.active_first (by decide)) (Demo.stored (by decide)).parsed ⟨rfl, rfl⟩).2
    ⟨?_, fun _ services hlists => Demo.body_le hlists⟩
  rw [Demo.rank_db]
  decide

/-- After a hundred publications of another seller it cannot: there is an answer without it, plans
that name it are rejected for that, and orders for it are refused. -/
theorem crowded_out :
    (lts Demo.host Marketplace.Demo.column Demo.validateUrl).Run .empty (Demo.publications 101)
      (Demo.db 101) ∧
    Demo.row 0 ∈ active (Demo.db 101) ∧
    publicEconomyService Demo.host (Demo.row 0) = .ok (Demo.service 0) ∧
    OfDeployment Demo.deployment (Demo.service 0) ∧
    ¬ Plannable Demo.host (Demo.db 101) Demo.deployment (Demo.service 0) ∧
    ¬ Orderable Demo.host Json.readPlain (Demo.db 101) (Demo.service 0) := by
  have hrun := Demo.publications_run (n := 101) (by decide)
  have hd : Published Demo.host (Demo.db 101) := published_run (fun _ => rfl) hrun
  have hrow : Demo.row 0 ∈ active (Demo.db 101) := Demo.active_first (by decide)
  have hstored := Demo.stored (i := 0) (by decide)
  have hrank : ¬ Listing.rank ServiceRow.createdAt (Demo.row 0) (active (Demo.db 101)) ≤
      catalogLimit := by
    rw [Demo.rank_db]
    decide
  have hhash : ∃ a, (Demo.service 0).json.canonicalJsonHash Demo.host = .ok a := by
    refine ⟨_, Json.canonicalJsonHash_ok.2 ⟨Json.ok_of_isOk ?_, rfl⟩⟩
    decide +kernel
  obtain ⟨a, ha⟩ := hhash
  refine ⟨hrun, hrow, hstored.parsed, ⟨rfl, rfl⟩, fun h => hrank ?_, fun h => hrank ?_⟩
  · exact (plannable_iff (fun _ => rfl) hd hrow hstored ⟨rfl, rfl⟩).1 h
  · exact ((orderable_iff (fun _ => rfl) Demo.read_numbers hd hrow hstored ha).1 h).1

end Catalog

end Obolos
