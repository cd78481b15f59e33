import Obolos.Economy.OrderInvariant
import Obolos.Economy.ProviderQueue

/-!
# What is always true of the jobs

`Inv` : every job is for a request whose payment is final, to an offer of this provider; it is
queued exactly as long as it has no claim; nothing comes out of it before it is completed; and a
completed job has an output that matches the schema of its service and was attested by the seller
in a final block.  A claim belongs to one job.

`JobRow.Moves` is what one statement may make of a job, and `JobRow.Becomes` what any time may make
of it: who has claimed the job and when stays, and a completed job stays as it is.
-/

namespace Obolos

namespace Provider

open ProviderWork (providerSchemas)
open ServiceDefinition (distinct_of_validate)
open Marketplace (EconomyDeployment validate_ok)

variable (H : Host) (C : Config) (chain : Chain)

/-- The two schemas have the same hash. -/
def SameHash (schema expected : Json) : Prop :=
  ∃ a, schema.canonicalJsonHash H = .ok a ∧ expected.canonicalJsonHash H = .ok a

/-- The terms are those of this provider. -/
structure Offers (service : ServiceDefinition) : Prop where
  terms : ∃ d, C.deployment = some d ∧ IsOffer C d service service.category
  input : SameHash H service.inputSchema (providerSchemas service.category).input
  output : SameHash H service.outputSchema (providerSchemas service.category).output

/-- The request was settled by a final transaction. -/
def IsPaid (final : ℕ) (service : ServiceDefinition) (request : ServiceRequest) : Prop :=
  ∃ receipt chainId v, chain.Final final receipt ∧
    receipt.transactionHash = request.transactionHash ∧
    request.verifyServiceSettlement H service (receipt.service chainId) = .ok v

/-- The seller has attested the delivery of this output in a final transaction. -/
def IsAttested (final : ℕ) (service : ServiceDefinition)
    (orderId outputHash attestationHash : Bytes32) : Prop :=
  ∃ d receipt, C.deployment = some d ∧ chain.Final final receipt ∧
    receipt.transactionHash = attestationHash ∧ receipt.status = .success ∧
    receipt.logs.any (attests d.ledger orderId service.seller outputHash) = true

namespace JobRow

/-- The job is bound to a service and a request. -/
structure Bound (final : ℕ) (row : JobRow) (service : ServiceDefinition)
    (request : ServiceRequest) : Prop where
  service_valid : ServiceDefinition.validate H row.definition = .ok service
  request_parsed : ServiceRequest.parse H row.request = .ok request
  request_valid : request.check H service = .ok ()
  orderId_eq : row.orderId = request.orderId
  hash : row.request.canonicalJsonHash H = .ok row.requestHash
  offer : Offers H C service
  paid : IsPaid H chain final service request

/-- The output of a completed job has its hash and the schema of the service, and was attested. -/
structure Attested (final : ℕ) (row : JobRow) (service : ServiceDefinition) (output : Json)
    (outputHash attestationHash : Bytes32) : Prop where
  output_eq : row.output = some output
  outputHash_eq : row.outputHash = some outputHash
  attestationHash_eq : row.attestationHash = some attestationHash
  service_valid : ServiceDefinition.validate H row.definition = .ok service
  distinct : output.Distinct
  hash : output.canonicalJsonHash H = .ok outputHash
  schema : output.validateSchemaValue H service.outputSchema (64 * 1024) = .ok ()
  attested : IsAttested C chain final service row.orderId outputHash attestationHash

/-- What is true of a job. -/
structure Ok (final : ℕ) (row : JobRow) : Prop where
  bound : ∃ service request, row.Bound H C chain final service request
  distinct : row.definition.Distinct
  claimed : row.state = .queued ↔ row.claimToken = none
  leased : row.claimToken.isSome = row.leaseStartedAt.isSome
  pending : row.state ≠ .completed →
    row.output = none ∧ row.outputHash = none ∧ row.attestationHash = none
  attested : row.state = .completed → ∃ service output outputHash attestationHash,
    row.Attested H C chain final service output outputHash attestationHash

/-- What one statement may make of a job. -/
inductive Moves (now : ℕ) (row : JobRow) : JobRow → Prop
  | stays : Moves now row row
  | claimed (token : JsString) (queued : row.state = .queued) : Moves now row (row.claim now token)
  | retried (retriable : row.retriable = true) : Moves now row (row.retry now)
  | failed (running : row.state = .running) : Moves now row (row.fail now)
  | completed (output : Json) (outputHash attestationHash : Bytes32)
      (running : row.state = .running) :
      Moves now row (row.complete now output outputHash attestationHash)

/-- A job that nobody has claimed yet. -/
structure New (row : JobRow) : Prop where
  queued : row.state = .queued
  claim : row.claimToken = none ∧ row.leaseStartedAt = none
  output : row.output = none ∧ row.outputHash = none ∧ row.attestationHash = none

/-- What becomes of a job in any time. -/
structure Becomes (row row' : JobRow) : Prop where
  identity : row'.toJobIdentity = row.toJobIdentity
  claim : ∀ token, row.claimToken = some token →
    row'.claimToken = some token ∧ row'.leaseStartedAt = row.leaseStartedAt
  completed : row.state = .completed → row' = row

end JobRow

/-- The invariant. -/
structure Inv (d : JobDb) : Prop where
  rows : ∀ id row, d.jobs.get id = some row → row.Ok H C chain d.final
  unique : d.jobs.Unique fun row => row.claimToken

/-- What may happen to the table in any time. -/
structure Keeps (d d' : JobDb) : Prop where
  now : d.now ≤ d'.now
  final : d.final ≤ d'.final
  rows : ∀ id row, d.jobs.get id = some row →
    ∃ row', d'.jobs.get id = some row' ∧ row.Becomes row'
  inv : Inv H C chain d'

/-- What a process may do in one step. -/
structure Step (d d' : JobDb) : Prop where
  keeps : Keeps H C chain d d'
  moves : ∀ id row row', d.jobs.get id = some row → d'.jobs.get id = some row' →
    row.Moves d.now row'
  added : ∀ id row, d.jobs.get id = none → d'.jobs.get id = some row → row.New

variable {H C chain} {final final' : ℕ} {d d' d'' : JobDb} {row row' row'' : JobRow}
  {service service' : ServiceDefinition} {request request' : ServiceRequest} {id : Bytes32}

theorem Chain.Final.mono {receipt : TransactionReceipt} (h : chain.Final final receipt)
    (hle : final ≤ final') : chain.Final final' receipt :=
  ⟨h.height.trans hle, h.canonical, h.mined⟩

theorem IsPaid.mono (h : IsPaid H chain final service request) (hle : final ≤ final') :
    IsPaid H chain final' service request := by
  obtain ⟨receipt, chainId, v, hfinal, hv⟩ := h
  exact ⟨receipt, chainId, v, hfinal.mono hle, hv⟩

theorem IsAttested.mono {orderId outputHash attestationHash : Bytes32}
    (h : IsAttested C chain final service orderId outputHash attestationHash)
    (hle : final ≤ final') :
    IsAttested C chain final' service orderId outputHash attestationHash := by
  obtain ⟨d, receipt, hd, hfinal, hr⟩ := h
  exact ⟨d, receipt, hd, hfinal.mono hle, hr⟩

namespace JobRow

theorem Ok.mono (h : row.Ok H C chain final) (hle : final ≤ final') :
    row.Ok H C chain final' := by
  refine { h with bound := ?_, attested := fun hc => ?_ }
  · obtain ⟨service, request, hb⟩ := h.bound
    exact ⟨service, request, { hb with paid := hb.paid.mono hle }⟩
  · obtain ⟨service, output, a, b, ha⟩ := h.attested hc
    exact ⟨service, output, a, b, { ha with attested := ha.attested.mono hle }⟩

theorem Becomes.refl (row : JobRow) : row.Becomes row := ⟨rfl, fun _ h => ⟨h, rfl⟩, fun _ => rfl⟩

theorem Becomes.trans (h : row.Becomes row') (h' : row'.Becomes row'') : row.Becomes row'' := by
  refine ⟨h'.identity.trans h.identity, fun token ht => ?_, fun hc => ?_⟩
  · obtain ⟨ht', hl⟩ := h.claim token ht
    obtain ⟨ht'', hl'⟩ := h'.claim token ht'
    exact ⟨ht'', hl'.trans hl⟩
  · have he := h.completed hc
    rw [h'.completed (he ▸ hc), he]

/-- A job that is run again has not been completed. -/
theorem not_completed (h : row.retriable = true) : row.state ≠ .completed := by
  intro hc
  simp [retriable, hc] at h

theorem Moves.identity {now : ℕ} (h : row.Moves now row') :
    row'.toJobIdentity = row.toJobIdentity := by
  cases h <;> rfl

theorem Moves.becomes {now : ℕ} (h : row.Moves now row') (hok : row.Ok H C chain final) :
    row.Becomes row' := by
  refine ⟨h.identity, fun token ht => ?_, fun hc => ?_⟩
  · cases h with
    | claimed token' queued =>
      rw [hok.claimed.1 queued] at ht
      cases ht
    | _ => exact ⟨ht, rfl⟩
  · cases h with
    | stays => rfl
    | claimed _ queued => rw [hc] at queued; cases queued
    | retried retriable => exact absurd hc (not_completed retriable)
    | failed running => rw [hc] at running; cases running
    | completed _ _ _ running => rw [hc] at running; cases running

/-- A job whose identity stays is bound to what it was. -/
theorem bound_same (hok : row.Ok H C chain final) (hid : row'.toJobIdentity = row.toJobIdentity) :
    ∃ service request, row'.Bound H C chain final service request := by
  have hrequest : row'.request = row.request := by rw [hid]
  have hdefinition : row'.definition = row.definition := by rw [hid]
  have horder : row'.orderId = row.orderId := by rw [hid]
  have hhash : row'.requestHash = row.requestHash := by rw [hid]
  obtain ⟨service, request, hb⟩ := hok.bound
  refine ⟨service, request, hdefinition ▸ hb.service_valid, hrequest ▸ hb.request_parsed,
    hb.request_valid, horder.trans hb.orderId_eq, ?_, hb.offer, hb.paid⟩
  rw [hrequest, hhash]
  exact hb.hash

theorem ok_claim {now : ℕ} {token : JsString} (hok : row.Ok H C chain final)
    (hqueued : row.state = .queued) : (row.claim now token).Ok H C chain final where
  bound := bound_same hok rfl
  distinct := hok.distinct
  claimed := ⟨fun h => (by cases h), fun h => (by cases h)⟩
  leased := rfl
  pending := fun _ => hok.pending (by rw [hqueued]; exact fun h => by cases h)
  attested := fun h => by cases h

/-- A job that is claimed and not completed may be running or have failed. -/
theorem ok_going {state : JobState} {now : ℕ} (hok : row.Ok H C chain final)
    (hclaimed : row.state ≠ .queued) (hopen : row.state ≠ .completed)
    (hstate : state = .running ∨ state = .failed) :
    ({ row with state := state, updatedAt := now } : JobRow).Ok H C chain final where
  bound := bound_same hok rfl
  distinct := hok.distinct
  claimed := by
    refine ⟨fun h => ?_, fun h => absurd (hok.claimed.2 h) hclaimed⟩
    rcases hstate with rfl | rfl <;> cases h
  leased := hok.leased
  pending := fun _ => hok.pending hopen
  attested := fun h => by rcases hstate with rfl | rfl <;> cases h

theorem ok_retry {now : ℕ} (hok : row.Ok H C chain final) (h : row.retriable = true) :
    (row.retry now).Ok H C chain final := by
  refine ok_going hok (fun hq => ?_) (not_completed h) (Or.inl rfl)
  simp [retriable, hq] at h

theorem ok_fail {now : ℕ} (hok : row.Ok H C chain final) (h : row.state = .running) :
    (row.fail now).Ok H C chain final :=
  ok_going hok (by rw [h]; exact fun h => by cases h) (by rw [h]; exact fun h => by cases h)
    (Or.inr rfl)

end JobRow

/-- An output that was checked for the definition of a job. -/
structure Checked (H : Host) (C : Config) (chain : Chain) (final : ℕ) (definition : Json)
    (orderId : Bytes32) (output : Json) (outputHash attestationHash : Bytes32) : Prop where
  distinct : output.Distinct
  hash : output.canonicalJsonHash H = .ok outputHash
  service : ∃ service, ServiceDefinition.validate H definition = .ok service ∧
    output.validateSchemaValue H service.outputSchema (64 * 1024) = .ok () ∧
    IsAttested C chain final service orderId outputHash attestationHash

theorem JobRow.ok_complete {J : Jsonb} {now : ℕ} {output stored : Json}
    {outputHash attestationHash : Bytes32} (hok : row.Ok H C chain final)
    (hclaimed : row.claimToken ≠ none)
    (hchecked : Checked H C chain final row.definition row.orderId output outputHash
      attestationHash) (hstored : J.store output = some stored) :
    (row.complete now stored outputHash attestationHash).Ok H C chain final where
  bound := bound_same hok rfl
  distinct := hok.distinct
  claimed := ⟨fun h => (by cases h), fun h => absurd h hclaimed⟩
  leased := hok.leased
  pending := fun h => absurd rfl h
  attested := fun _ => by
    obtain ⟨service, hservice, hschema, hattested⟩ := hchecked.service
    obtain ⟨hdistinct, hsame⟩ := J.store_same hchecked.distinct
      (Json.finite_of_canonicalJsonHash hchecked.hash) hstored
    have hsame' := hsame.symm hdistinct hchecked.distinct
    have hout := (distinct_of_validate hok.distinct hservice).2
    exact ⟨service, stored, outputHash, attestationHash, rfl, rfl, rfl, hservice, hdistinct,
      Json.canonicalJsonHash_same hchecked.distinct hdistinct hsame' hchecked.hash,
      Json.validateSchemaValue_same hchecked.distinct hdistinct hsame' hout hout (.refl hout)
        hschema, hattested⟩

/-! ### What may happen -/

theorem Keeps.refl (hinv : Inv H C chain d) : Keeps H C chain d d :=
  ⟨le_rfl, le_rfl, fun _ row h => ⟨row, h, .refl row⟩, hinv⟩

theorem Keeps.trans (h : Keeps H C chain d d') (h' : Keeps H C chain d' d'') :
    Keeps H C chain d d'' := by
  refine ⟨h.now.trans h'.now, h.final.trans h'.final, fun id row hrow => ?_, h'.inv⟩
  obtain ⟨row', hrow', hb⟩ := h.rows id row hrow
  obtain ⟨row'', hrow'', hb'⟩ := h'.rows id row' hrow'
  exact ⟨row'', hrow'', hb.trans hb'⟩

theorem Step.refl (hinv : Inv H C chain d) : Step H C chain d d := by
  refine ⟨.refl hinv, fun id row row' hrow hrow' => ?_, fun id row hnone hrow => ?_⟩
  · obtain rfl := Option.some.inj (hrow.symm.trans hrow')
    exact .stays
  · rw [hnone] at hrow
    cases hrow

/-- Time passes, and blocks become final. -/
theorem keeps_clock (hinv : Inv H C chain d)
    (h : ∃ now final, d.now ≤ now ∧ d.final ≤ final ∧ d' = { d with now, final }) :
    Keeps H C chain d d' := by
  obtain ⟨now, final, hnow, hfinal, rfl⟩ := h
  exact ⟨hnow, hfinal, fun _ row hrow => ⟨row, hrow, .refl row⟩,
    fun id row hrow => (hinv.rows id row hrow).mono hfinal, hinv.unique⟩

/-! ### Changing a job -/

theorem get_replaced (hrow : d.jobs.get id = some row)
    (hid : row'.toJobIdentity = row.toJobIdentity) (k : Bytes32) :
    (d.jobs.replace row').get k = if k = id then some row' else d.jobs.get k := by
  have hkey : row'.orderId = id := by
    rw [hid]
    exact (Table.get_eq_some.1 hrow).2
  have hrow' : d.jobs.get row'.orderId = some row := hkey ▸ hrow
  rw [Table.get_replace (r := row') hrow']
  simp only [hkey]

/-- The step of a process that changes a job. -/
theorem step_replace (hinv : Inv H C chain d) (hrow : d.jobs.get id = some row)
    (hmoves : row.Moves d.now row') (hok : row'.Ok H C chain d.final)
    (hunique : (d.jobs.replace row').Unique fun row => row.claimToken) :
    Step H C chain d { d with jobs := d.jobs.replace row' } := by
  have hget := get_replaced hrow hmoves.identity
  refine ⟨⟨le_rfl, le_rfl, fun k r hr => ?_, fun k r hr => ?_, hunique⟩, fun k r r' hr hr' => ?_,
    fun k r hnone hr => ?_⟩
  · by_cases hk : k = id
    · subst hk
      obtain rfl := Option.some.inj (hr.symm.trans hrow)
      exact ⟨row', by rw [hget, if_pos rfl], hmoves.becomes (hinv.rows _ _ hrow)⟩
    · exact ⟨r, by rw [hget, if_neg hk]; exact hr, .refl r⟩
  · rw [hget] at hr
    split_ifs at hr with hk
    · cases hr
      exact hok
    · exact hinv.rows k r hr
  · rw [hget] at hr'
    split_ifs at hr' with hk
    · subst hk
      cases hr'
      obtain rfl := Option.some.inj (hr.symm.trans hrow)
      exact hmoves
    · obtain rfl := Option.some.inj (hr.symm.trans hr')
      exact .stays
  · rw [hget] at hr
    split_ifs at hr with hk
    · rw [← hk, hnone] at hrow
      cases hrow
    · rw [hnone] at hr
      cases hr

/-- The same, when the claim stays. -/
theorem step_same (hinv : Inv H C chain d) (hrow : d.jobs.get id = some row)
    (hmoves : row.Moves d.now row') (hok : row'.Ok H C chain d.final)
    (htoken : row'.claimToken = row.claimToken) :
    Step H C chain d { d with jobs := d.jobs.replace row' } := by
  refine step_replace hinv hrow hmoves hok ?_
  have hkey : row'.orderId = id := by
    rw [hmoves.identity]
    exact (Table.get_eq_some.1 hrow).2
  have hrow' : d.jobs.get row'.orderId = some row := hkey ▸ hrow
  exact hinv.unique.replace_same hrow' htoken

/-! ### The statements -/

variable {J : Jsonb} {orderId : Bytes32} {token : JsString} {o : Option JobRow}

/-- Claiming a job. -/
theorem step_claim {locked : Bytes32 → Bool} (hinv : Inv H C chain d)
    (h : claimJob locked token d = .ok (o, d')) :
    Step H C chain d d' ∧ ∀ row', o = some row' →
      d'.jobs.get row'.orderId = some row' ∧ row'.claimToken = some token := by
  rcases claimJob_ok h with ⟨rfl, rfl⟩ | ⟨row, hrow, hqueued, hnew, rfl, rfl⟩
  · exact ⟨.refl hinv, fun row' ho => by cases ho⟩
  · have hok := hinv.rows _ _ hrow
    have hmoves : row.Moves d.now (row.claim d.now token) := .claimed token hqueued
    refine ⟨step_replace hinv hrow hmoves (JobRow.ok_claim hok hqueued) ?_, fun row' ho => ?_⟩
    · refine hinv.unique.replace (r := row.claim d.now token) hrow fun k r v _ hr hv => ?_
      cases hv
      exact hnew k r hr
    · cases ho
      exact ⟨(get_replaced hrow hmoves.identity _).trans (if_pos rfl), rfl⟩

/-- Running a job again. -/
theorem step_retry (hinv : Inv H C chain d) (h : retryJob orderId token d = .ok (o, d')) :
    Step H C chain d d' := by
  rcases retryJob_ok h with ⟨-, rfl⟩ | ⟨row, hrow, -, hretriable, -, rfl⟩
  · exact .refl hinv
  · exact step_same hinv hrow (.retried hretriable)
      (JobRow.ok_retry (hinv.rows _ _ hrow) hretriable) rfl

/-- A job has failed. -/
theorem step_fail {u : Unit} (hinv : Inv H C chain d)
    (h : failJob orderId token d = .ok (u, d')) : Step H C chain d d' := by
  rcases failJob_ok h with rfl | ⟨row, hrow, -, hrunning, rfl⟩
  · exact .refl hinv
  · exact step_same hinv hrow (.failed hrunning) (JobRow.ok_fail (hinv.rows _ _ hrow) hrunning) rfl

/-- A job is completed. -/
theorem step_complete {output : Json} {outputHash attestationHash : Bytes32}
    (hinv : Inv H C chain d)
    (hchecked : ∀ row, d.jobs.get orderId = some row →
      Checked H C chain d.final row.definition row.orderId output outputHash attestationHash)
    (h : completeJob J orderId token output outputHash attestationHash d = .ok (o, d')) :
    Step H C chain d d' := by
  rcases completeJob_ok h with ⟨-, rfl⟩ | ⟨row, stored, hrow, htoken, hrunning, hstored, rfl⟩
  · exact .refl hinv
  · refine step_same hinv hrow (.completed stored outputHash attestationHash hrunning) ?_ rfl
    exact JobRow.ok_complete (hinv.rows _ _ hrow) (by rw [htoken]; exact fun h => by cases h)
      (hchecked row hrow) hstored

/-- What was checked before a job is queued. -/
structure Payable (H : Host) (C : Config) (chain : Chain) (final : ℕ) (job : NewJob) : Prop where
  terms : ∃ (x z : Json) (service : ServiceDefinition) (request : ServiceRequest),
    x.Distinct ∧ ServiceDefinition.validate H x = .ok service ∧
      z.Distinct ∧ ServiceRequest.parse H z = .ok request ∧
      request.check H service = .ok () ∧ Offers H C service ∧
      IsPaid H chain final service request ∧
      request.json.canonicalJsonHash H = .ok job.requestHash ∧
      job.orderId = request.orderId ∧ job.request = request.json ∧ job.definition = service.json

theorem SameHash.of_same {schema schema' expected : Json} (h : SameHash H schema expected)
    (hd : schema.Distinct) (hd' : schema'.Distinct) (hsame : schema.Same schema') :
    SameHash H schema' expected := by
  obtain ⟨a, ha, he⟩ := h
  exact ⟨a, Json.canonicalJsonHash_same hd hd' hsame ha, he⟩

theorem Offers.of_same (h : Offers H C service) (hs : service.Same service')
    (hd : service.Distinct) (hd' : service'.Distinct) : Offers H C service' := by
  obtain ⟨⟨d, hdeployment, hoffer⟩, hinput, houtput⟩ := h
  have hcategory : service'.category = service.category := by rw [← hs.fields]
  refine ⟨⟨d, hdeployment, ?_⟩, ?_, ?_⟩
  · rw [← hs.fields]
    exact hoffer
  · rw [hcategory]
    exact hinput.of_same hd.1 hd'.1 hs.inputSchema
  · rw [hcategory]
    exact houtput.of_same hd.2 hd'.2 hs.outputSchema

/-- The row of a job that was checked: what is stored is accepted again. -/
theorem Payable.stored {job : NewJob} {now : ℕ} {request' definition : Json}
    (hlower : ∀ a : Address, H.isAddress a.text = true) (h : Payable H C chain final job)
    (hrequest : J.store job.request = some request')
    (hdefinition : J.store job.definition = some definition) :
    (job.stored now request' definition).Ok H C chain final := by
  obtain ⟨x, z, service, request, hx, hservice, hz, hparsed, hvalid, hoffer, hpaid, hhash, hid,
    hr, hd⟩ := h.terms
  obtain ⟨hparse, hcheck⟩ := validate_ok.1 hservice
  rw [hr] at hrequest
  rw [hd] at hdefinition
  obtain ⟨hdistinct, hservice_distinct, service', hparse', hs, hservice_distinct'⟩ :=
    ServiceDefinition.stored hlower hx hparse hdefinition
  obtain ⟨hinput, request'', hparsed'', hr', hinput'⟩ :=
    ServiceRequest.stored hlower hz hparsed hhash hrequest
  have hjson := ServiceRequest.distinct_json hinput
  obtain ⟨hdistinct', hsame⟩ :=
    J.store_same hjson (Json.finite_of_canonicalJsonHash hhash) hrequest
  obtain ⟨receipt, chainId, v, hfinal, htx, hv⟩ := hpaid
  refine ⟨⟨service', request'', validate_ok.2 ⟨hparse', ServiceDefinition.check_same hs hcheck⟩,
    hparsed'', ServiceRequest.check_same hs hr' hservice_distinct hservice_distinct' hinput hinput'
      hvalid, ?_, ?_, hoffer.of_same hs hservice_distinct hservice_distinct',
    receipt, chainId, v, hfinal, ?_, (ServiceRequest.verify_same hs hr').trans hv⟩, hdistinct,
    ⟨fun _ => rfl, fun _ => rfl⟩, rfl, fun _ => ⟨rfl, rfl, rfl⟩, fun h => by cases h⟩
  · rw [← hr'.fields]
    exact hid
  · exact Json.canonicalJsonHash_same hjson hdistinct' (hsame.symm hdistinct' hjson) hhash
  · rw [← hr'.fields]
    exact htx

/-- Queueing a job. -/
theorem step_insert {job : NewJob} {u : Unit} (hlower : ∀ a : Address, H.isAddress a.text = true)
    (hinv : Inv H C chain d) (hpayable : Payable H C chain d.final job)
    (h : insertJob J job d = .ok (u, d')) : Step H C chain d d' := by
  rcases insertJob_ok h with rfl | ⟨request, definition, hrequest, hdefinition, hfree, rfl⟩
  · exact .refl hinv
  have hget : ∀ k, (d.jobs.insert (job.stored d.now request definition)).get k =
      if k = job.orderId then some (job.stored d.now request definition)
      else d.jobs.get k := fun k => Table.get_insert hfree
  have hold : ∀ k r, d.jobs.get k = some r →
      (d.jobs.insert (job.stored d.now request definition)).get k = some r := by
    intro k r hr
    rw [hget, if_neg]
    · exact hr
    · rintro rfl
      rw [hfree] at hr
      cases hr
  refine ⟨⟨le_rfl, le_rfl, fun k r hr => ⟨r, hold k r hr, .refl r⟩, fun k r hr => ?_, ?_⟩, ?_, ?_⟩
  · rw [hget] at hr
    split_ifs at hr with hk
    · cases hr
      exact hpayable.stored hlower hrequest hdefinition
    · exact hinv.rows k r hr
  · refine hinv.unique.insert hfree fun k r v hr hv => ?_
    cases hv
  · intro k r r' hr hr'
    obtain rfl := Option.some.inj ((hold k r hr).symm.trans hr')
    exact .stays
  · intro k r hnone hr
    rw [hget] at hr
    split_ifs at hr with hk
    · cases hr
      exact ⟨rfl, ⟨rfl, rfl⟩, rfl, rfl, rfl⟩
    · rw [hnone] at hr
      cases hr

end Provider

end Obolos
