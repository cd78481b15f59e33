import Obolos.Crash.Listing
import Obolos.Economy.Marketplace
import Obolos.Economy.StoredTerms
import Obolos.Js.BigInt
import Obolos.LTS.Run

/-!
# The catalog of services

Sellers publish and retire services (`createEconomyService` of `marketplace.ts` and `retireService`
of `recovery.ts`), and `listEconomyServices` answers with the newest ones that are not retired.
The rows of both tables are immutable.  A handler changes the tables with a single `INSERT`, and what
it reads before that does not change any more; it is one step here.

`published_run` : the hashes in the table are different, and every row is read back as a valid
definition with the hash of the row.
-/

namespace Obolos

namespace Catalog

open Marketplace (EconomyDeployment)

/-- A row of `economy_services`; `service_hash` is the primary key. -/
structure ServiceRow where
  serviceHash : Bytes32
  userId : JsString
  definition : Json
  createdAt : ℕ

/-- A row of `economy_service_retirements`; `service_hash` is the primary key. -/
structure RetirementRow where
  serviceHash : Bytes32
  userId : JsString
  reason : JsString

/-- The tables. -/
structure CatalogDb where
  services : List ServiceRow
  retirements : List RetirementRow

/-- The empty tables. -/
def CatalogDb.empty : CatalogDb := ⟨[], []⟩

variable (H : Host) (J : Jsonb) (validateUrl : JsString → Except ApiError Unit)

/-! ### The handlers -/

/-- `publicEconomyService(row)` -/
def publicEconomyService (row : ServiceRow) : Except JsError ServiceDefinition :=
  ServiceDefinition.parse H row.definition

/-- `SELECT * FROM economy_services WHERE service_hash=…` -/
def CatalogDb.service (serviceHash : Bytes32) (d : CatalogDb) : Option ServiceRow :=
  d.services.find? fun row => row.serviceHash = serviceHash

/-- `INSERT INTO economy_services(…) … ON CONFLICT(service_hash) DO NOTHING RETURNING *` -/
def insertService (serviceHash : Bytes32) (userId : JsString) (definition : Json) (createdAt : ℕ) :
    Statement CatalogDb ApiError (Option ServiceRow) := fun d =>
  match d.service serviceHash with
  | some _ => .ok (none, d)
  | none =>
    match J.store definition with
    | none => .error .untranslatable
    | some stored =>
      let row := ⟨serviceHash, userId, stored, createdAt⟩
      .ok (some row, { d with services := row :: d.services })

/-- `same(a, b)` -/
def sameJson (a b : Json) : Except JsError Bool := do
  return (← a.canonicalJsonHash H) = (← b.canonicalJsonHash H)

/-- `createEconomyService(user, value)` up to its answer `publicEconomyService(row)`.  `registered` is
what the settlement contract has under the hash of the definition, `createdAt` the time of the
`INSERT`, and `validateUrl` is `validateRemoteVerifierUrl`. -/
def createEconomyService (deployment : Option EconomyDeployment) (user : User) (value : Json)
    (registered : ObolosMarketSettlement.Service) (createdAt : ℕ) :
    Statement CatalogDb ApiError ServiceRow := fun d => do
  match deployment with
  | none => ApiError.fail 503 "ECONOMY_NOT_DEPLOYED" "The Arc economy contracts are not deployed."
  | some deployment => do
    let definition ← ApiError.lift (ServiceDefinition.validate H value)
    validateUrl definition.endpoint
    if definition.seller.text ≠ user.address.toLowerCase then
      ApiError.fail 403 "SERVICE_SELLER_MISMATCH"
        "The authenticated wallet must be the registered seller."
    if definition.settlementAddress ≠ deployment.settlement ∨
        definition.ledgerAddress ≠ deployment.ledger then
      ApiError.fail 409 "DEPLOYMENT_MISMATCH"
        "Service definition does not match the active Arc deployment."
    if registered ≠ definition.onchain H then
      ApiError.fail 409 "SERVICE_NOT_REGISTERED"
        "Finalized on-chain service terms do not match this definition."
    let (inserted, d) ← insertService J definition.serviceHash user.id definition.json createdAt d
    match inserted with
    | some row => return (row, d)
    | none =>
      match d.service definition.serviceHash with
      | none =>
        ApiError.fail 409 "SERVICE_IMMUTABLE"
          "This service hash is already published with different metadata or schemas."
      | some row => do
        if row.userId ≠ user.id ∨
            !(← ApiError.lift (sameJson H row.definition definition.json)) then
          ApiError.fail 409 "SERVICE_IMMUTABLE"
            "This service hash is already published with different metadata or schemas."
        return (row, d)

/-- `z.object({reason: z.string().trim().min(1).max(1000)}).strict().parse(value)` -/
def readReason (x : Json) : Except JsError JsString := do
  let fields ← Json.strictFields ["reason"] x
  Json.textField (fun s =>
    if 1 ≤ s.trim.length ∧ s.trim.length ≤ 1000 then some s.trim else none) "reason" fields

/-- `service.definition.seller` -/
def ServiceRow.seller (row : ServiceRow) : Option JsString :=
  (row.definition.prop "seller").bind Json.asStr

/-- `retireService(db, user, serviceHash, value)` -/
def retireService (user : User) (serviceHash : JsString) (value : Json) :
    Statement CatalogDb ApiError Unit := fun d => do
  match readBytes32 serviceHash with
  | none => .error (.thrown .zod)
  | some hash => do
    let reason ← ApiError.lift (readReason value)
    match d.service hash with
    | none => ApiError.fail 404 "SERVICE_NOT_FOUND" "Owned service not found."
    | some row => do
      if row.userId ≠ user.id ∨ row.seller ≠ some user.address.toLowerCase then
        ApiError.fail 404 "SERVICE_NOT_FOUND" "Owned service not found."
      if d.retirements.any fun r => r.serviceHash = hash then return ((), d)
      else return ((), { d with retirements := ⟨hash, user.id, reason⟩ :: d.retirements })

/-- The rows that are not retired. -/
def active (d : CatalogDb) : List ServiceRow :=
  d.services.filter fun row => d.retirements.all fun r => r.serviceHash ≠ row.serviceHash

/-- The limit of `listEconomyServices`. -/
def catalogLimit : ℕ := 100

/-- `listEconomyServices()` may answer with `services`: the newest active rows.  Rows of the same
time come in any order. -/
def ListsServices (d : CatalogDb) (services : List ServiceDefinition) : Prop :=
  ∃ rows, Listing.Lists ServiceRow.createdAt catalogLimit (active d) rows ∧
    rows.mapM (publicEconomyService H) = .ok services

/-! ### The system -/

/-- A request that changes the tables. -/
inductive Op
  | createEconomyService (deployment : Option EconomyDeployment) (user : User) (value : Json)
      (registered : ObolosMarketSettlement.Service) (createdAt : ℕ)
  | retireService (user : User) (serviceHash : JsString) (value : Json)

/-- The tables after a request. -/
def exec (d : CatalogDb) : Op → Except ApiError CatalogDb
  | .createEconomyService deployment user value registered createdAt =>
    (createEconomyService H J validateUrl deployment user value registered createdAt d).map Prod.snd
  | .retireService user serviceHash value => (retireService user serviceHash value d).map Prod.snd

/-- The bodies of the requests were read with `JSON.parse`. -/
def Op.Read : Op → Prop
  | .createEconomyService _ _ value _ _ => value.Distinct
  | .retireService _ _ _ => True

/-- Any requests by any users, in any order and at any times; a request that fails leaves the tables
as they are. -/
def lts : LTS CatalogDb Op where
  step d op d' := op.Read ∧
    match exec H J validateUrl d op with
    | .ok after => d' = after
    | .error _ => d' = d

/-! ### What is published -/

variable {H J validateUrl} {d d' : CatalogDb} {op : Op} {row : ServiceRow}

/-- A row as `createEconomyService` inserts it. -/
structure Stored (H : Host) (row : ServiceRow) (service : ServiceDefinition) : Prop where
  distinct : row.definition.Distinct
  parsed : publicEconomyService H row = .ok service
  valid : service.check H = .ok ()
  schemas : service.Distinct
  serviceHash : service.serviceHash = row.serviceHash

/-- The hashes are different, and every row is read back as a valid definition. -/
structure Published (H : Host) (d : CatalogDb) : Prop where
  nodup : (d.services.map ServiceRow.serviceHash).Nodup
  stored : ∀ row ∈ d.services, ∃ service, Stored H row service

theorem published_empty : Published H .empty where
  nodup := List.nodup_nil
  stored row h := by cases h

/-- What a successful `createEconomyService` did to the tables: nothing, or it inserted the row of a
valid definition under a new hash. -/
theorem createEconomyService_cases {deployment : Option EconomyDeployment} {user : User}
    {value : Json} {registered : ObolosMarketSettlement.Service} {createdAt : ℕ}
    (h : createEconomyService H J validateUrl deployment user value registered createdAt d =
      .ok (row, d')) :
    d' = d ∨ ∃ service, ServiceDefinition.validate H value = .ok service ∧
      d.service service.serviceHash = none ∧
      J.store service.json = some row.definition ∧ row.serviceHash = service.serviceHash ∧
      d' = { d with services := row :: d.services } := by
  unfold createEconomyService at h
  cases deployment with
  | none => cases h
  | some deployment =>
    simp only [bind_eq_ok, ApiError.lift_ok] at h
    obtain ⟨service, hservice, -, -, h⟩ := h
    split_ifs at h <;> first | cases h | skip
    simp only [bind_eq_ok] at h
    obtain ⟨⟨inserted, d₁⟩, hinsert, h⟩ := h
    unfold insertService at hinsert
    split at hinsert
    · obtain ⟨rfl, rfl⟩ := Prod.mk.inj (Except.ok.inj hinsert)
      left
      simp only at h
      split at h
      · cases h
      · simp only [bind_eq_ok] at h
        obtain ⟨_, -, h⟩ := h
        split_ifs at h
        · cases h
        · exact (Prod.mk.inj (Except.ok.inj h)).2.symm
    · rename_i hfresh
      split at hinsert
      · cases hinsert
      · rename_i stored hstored
        obtain ⟨rfl, rfl⟩ := Prod.mk.inj (Except.ok.inj hinsert)
        obtain ⟨rfl, rfl⟩ := Prod.mk.inj (Except.ok.inj h)
        exact Or.inr ⟨service, hservice, hfresh, hstored, rfl, rfl⟩

theorem retireService_services {user : User} {serviceHash : JsString} {value : Json} {u : Unit}
    (h : retireService user serviceHash value d = .ok (u, d')) : d'.services = d.services := by
  unfold retireService at h
  split at h
  · cases h
  · simp only [bind_eq_ok] at h
    obtain ⟨reason, -, h⟩ := h
    split at h
    · cases h
    · split_ifs at h <;> first | cases h; rfl | cases h

/-- A definition that was validated comes back from its row. -/
theorem stored_of_validate (hlower : ∀ a : Address, H.isAddress a.text = true) {value : Json}
    (hvalue : value.Distinct) {service : ServiceDefinition}
    (hservice : ServiceDefinition.validate H value = .ok service)
    (hstore : J.store service.json = some row.definition)
    (hhash : row.serviceHash = service.serviceHash) : ∃ service', Stored H row service' := by
  simp only [ServiceDefinition.validate, bind_eq_ok, pure_eq_ok] at hservice
  obtain ⟨parsed, hparse, _, hcheck, rfl⟩ := hservice
  obtain ⟨hdistinct, -, service', hparse', hsame, hdistinct'⟩ :=
    ServiceDefinition.stored hlower hvalue hparse hstore
  refine ⟨service', hdistinct, hparse', ServiceDefinition.check_same hsame hcheck, hdistinct', ?_⟩
  rw [hhash, ← hsame.fields]

theorem published_step (hlower : ∀ a : Address, H.isAddress a.text = true)
    (h : (lts H J validateUrl).step d op d') (hd : Published H d) : Published H d' := by
  obtain ⟨hread, h⟩ := h
  split at h
  · rename_i after hafter
    subst h
    cases op with
    | createEconomyService deployment user value registered createdAt =>
      simp only [exec] at hafter
      obtain ⟨⟨row, d₁⟩, hcreate, rfl⟩ := map_eq_ok.1 hafter
      rcases createEconomyService_cases hcreate with hsame | ⟨service, hservice, hnew, hstore,
        hhash, hinserted⟩
      · exact hsame ▸ hd
      · have hstored := stored_of_validate hlower hread hservice hstore hhash
        rw [show (row, d₁).2 = _ from hinserted]
        refine ⟨?_, fun r hr => ?_⟩
        · refine List.nodup_cons.2 ⟨?_, hd.nodup⟩
          rw [hhash]
          intro hmem
          obtain ⟨r, hr, heq⟩ := List.mem_map.1 hmem
          exact absurd heq (by simpa using List.find?_eq_none.1 hnew r hr)
        · rcases List.mem_cons.1 hr with rfl | hr
          · exact hstored
          · exact hd.stored r hr
    | retireService user serviceHash value =>
      simp only [exec] at hafter
      obtain ⟨⟨u, d₁⟩, hretire, rfl⟩ := map_eq_ok.1 hafter
      have hservices := retireService_services hretire
      refine ⟨?_, fun r hr => ?_⟩
      · rw [show (u, d₁).2.services = _ from hservices]
        exact hd.nodup
      · rw [show (u, d₁).2.services = _ from hservices] at hr
        exact hd.stored r hr
  · rw [h]
    exact hd

/-- **The table is valid after every run.** -/
theorem published_run (hlower : ∀ a : Address, H.isAddress a.text = true)
    {τ : List (Tr CatalogDb Op)} (h : (lts H J validateUrl).Run .empty τ d) : Published H d :=
  h.invariant published_empty fun _ _ _ hd hst => published_step hlower hst hd

/-! ### What is listed -/

theorem mem_services_of_active (h : row ∈ active d) : row ∈ d.services := (List.mem_filter.1 h).1

theorem active_nodup (hd : Published H d) : (active d).Nodup := by
  refine List.Nodup.of_map ServiceRow.serviceHash ?_
  exact hd.nodup.sublist (List.Sublist.map _ List.filter_sublist)

/-- Rows are equal when their hashes are. -/
theorem row_eq (hd : Published H d) {row' : ServiceRow} (h : row ∈ d.services)
    (h' : row' ∈ d.services) (hhash : row.serviceHash = row'.serviceHash) : row = row' :=
  List.inj_on_of_nodup_map hd.nodup h h' hhash

/-- Published rows can be listed: each as its definition. -/
theorem mapM_services {rows : List ServiceRow} (hrows : ∀ row ∈ rows, ∃ service, Stored H row service) :
    ∃ services, rows.mapM (publicEconomyService H) = .ok services ∧
      List.Forall₂ (Stored H) rows services := by
  induction rows with
  | nil => exact ⟨[], rfl, .nil⟩
  | cons row rows ih =>
    obtain ⟨service, hservice⟩ := hrows row List.mem_cons_self
    obtain ⟨services, hmap, hall⟩ := ih fun r hr => hrows r (List.mem_cons_of_mem _ hr)
    refine ⟨service :: services, ?_, .cons hservice hall⟩
    simp only [List.mapM_cons, bind_eq_ok, pure_eq_ok]
    exact ⟨service, hservice.parsed, services, hmap, rfl⟩

/-- An answer of `listEconomyServices` is a listing of the active rows, each as its definition. -/
theorem listsServices_iff (hd : Published H d) {services : List ServiceDefinition} :
    ListsServices H d services ↔ ∃ rows,
      Listing.Lists ServiceRow.createdAt catalogLimit (active d) rows ∧
        List.Forall₂ (Stored H) rows services := by
  refine exists_congr fun rows => and_congr_right fun hlists => ?_
  have hrows : ∀ row ∈ rows, ∃ service, Stored H row service := by
    intro row hrow
    exact hd.stored row (mem_services_of_active (Listing.subset_of_lists hlists row hrow))
  obtain ⟨services', hmap, hall⟩ := mapM_services hrows
  constructor
  · intro h
    rw [hmap] at h
    exact Except.ok.inj h ▸ hall
  · intro h
    have heq : services = services' := by
      have hunique : Relator.RightUnique (Stored H) := by
        intro row a b ha hb
        exact Except.ok.inj (ha.parsed.symm.trans hb.parsed)
      exact List.right_unique_forall₂' hunique h hall
    rw [hmap, heq]

end Catalog

end Obolos
