import Obolos.Economy.ExecutorState
import Obolos.Economy.Settlement

/-!
# A payment that went through is recognised

The buyer computes the order for the settlement contract and, once it is paid, the request for the
provider from one accepted input.  `payment_recognised` : the contract knows the service under the
hash of the definition, the order passes the checks of `settle` on the service and the amount, and
the receipt of the transaction that settled it is accepted for the request.

This needs that the definition names the ledger of its settlement contract: its hash does not
cover the address of the ledger.  `ledger_not_hashed` is an accepted and paid input with another
ledger, whose payment is not recognised.
-/

namespace Obolos

/-! ### Reading back a definition and an input -/

/-- What a parsed definition looks like. -/
structure ServiceTerms.Parsed (H : Host) (terms : ServiceTerms) : Prop where
  settlementAddress : H.isAddress terms.settlementAddress.text = true
  ledgerAddress : H.isAddress terms.ledgerAddress.text = true
  seller : H.isAddress terms.seller.text = true
  endpoint : readUrl H terms.endpoint = some terms.endpoint
  unit_pos : 1 ≤ terms.unit.length
  unit_le : terms.unit.length ≤ 80
  quantity : 0 < terms.quantity
  unitPriceAtomic : 0 < terms.unitPriceAtomic
  inputSchema : terms.inputSchema.isSchema H = true
  outputSchema : terms.outputSchema.isSchema H = true

/-- Parsing a definition again changes nothing. -/
theorem ServiceDefinition.parse_json {H : Host} {service : ServiceDefinition}
    (h : service.Parsed H) : ServiceDefinition.parse H service.json = .ok service := by
  simp [ServiceDefinition.parse, ServiceDefinition.json, ServiceTerms.fields, ServiceTerms.keys,
    ServiceTerms.readFields, bind, Except.bind, pure, Except.pure, Json.strictFields,
    Json.literalField, Json.textField, Json.field, Json.get, Json.asStr, readBytes32_text,
    readAddress_text h.settlementAddress, readAddress_text h.ledgerAddress,
    readAddress_text h.seller, h.endpoint, h.unit_pos, h.unit_le, readPositive_decimal h.quantity,
    readPositive_decimal h.unitPriceAtomic, h.inputSchema, h.outputSchema,
    ResourceCategory.read_text]

namespace Executor

namespace ExecutorInput

variable {H : Host} {intent : ExecutorInput}

/-- What a parsed input looks like. -/
structure Parsed (H : Host) (intent : ExecutorInput) : Prop where
  origin : readOrigin H intent.origin = some intent.origin
  platformAgentId : H.isUuid intent.platformAgentId = true
  orderId : intent.orderId ≠ 0
  owner : H.isAddress intent.owner.text = true
  payer : H.isAddress intent.payer.text = true
  definition : intent.definition.Parsed H
  maxAmountAtomic : 0 < intent.maxAmountAtomic
  expiry : 0 < intent.expiry

/-- Parsing an input again changes nothing. -/
theorem parse_json (h : Parsed H intent) : parse H intent.json = .ok intent := by
  have horder : ¬ intent.orderId = 0#256 := h.orderId
  simp [parse, json, bind, Except.bind, pure, Except.pure, Json.strictFields, Json.textField,
    Json.field, Json.get, Json.asStr, readBytes32Lowered_text, h.origin,
    h.platformAgentId, horder, readAddress_text h.owner, readAddress_text h.payer,
    ServiceDefinition.parse_json h.definition, Except.toOption,
    readPositive_decimal h.maxAmountAtomic, readPositive_decimal h.expiry]

theorem terms_pos {fields : List (JsString × Json)} {terms : ServiceTerms}
    (h : ServiceTerms.readFields H fields = .ok terms) :
    0 < terms.quantity ∧ 0 < terms.unitPriceAtomic := by
  simp only [ServiceTerms.readFields, bind_eq_ok, pure_eq_ok] at h
  obtain ⟨_, -, _, -, _, -, _, -, _, -, _, -, _, -, q, hq, p, hp, _, -, _, -, rfl⟩ := h
  obtain ⟨_, hq⟩ := Json.textField_ok hq
  obtain ⟨_, hp⟩ := Json.textField_ok hp
  exact ⟨readPositive_pos hq, readPositive_pos hp⟩

theorem definition_pos {x : Json} {service : ServiceDefinition}
    (h : ServiceDefinition.parse H x = .ok service) :
    0 < service.quantity ∧ 0 < service.unitPriceAtomic := by
  simp only [ServiceDefinition.parse, bind_eq_ok, pure_eq_ok] at h
  obtain ⟨_, -, terms, hterms, _, -, _, -, rfl⟩ := h
  exact terms_pos hterms

/-- The order id of a parsed input is not zero, and its amounts are positive. -/
theorem parse_pos {x : Json} (h : parse H x = .ok intent) :
    intent.orderId ≠ 0 ∧ 0 < intent.definition.quantity ∧
      0 < intent.definition.unitPriceAtomic := by
  simp only [parse, bind_eq_ok, pure_eq_ok] at h
  obtain ⟨_, -, _, -, _, -, _, -, id, hid, _, -, _, -, d, hd, _, -, _, -, _, -, _, -, rfl⟩ := h
  refine ⟨?_, ?_⟩
  · obtain ⟨s, hs⟩ := Json.textField_ok hid
    obtain ⟨b, -, hb⟩ := Option.bind_eq_some_iff.1 hs
    split_ifs at hb with hne
    rwa [← Option.some.inj hb]
  · obtain ⟨y, -, hy⟩ := Option.bind_eq_some_iff.1 (Json.field_ok.1 hd)
    cases hparse : ServiceDefinition.parse H y with
    | error e => rw [hparse] at hy; cases hy
    | ok service =>
      rw [hparse] at hy
      obtain rfl : service = d := Option.some.inj hy
      exact definition_pos hparse

/-- An input that `runEconomyExecutor` accepts at its start. -/
structure Accepted (H : Host) (intent : ExecutorInput) : Prop where
  parsed : ∃ x, parse H x = .ok intent
  valid : intent.check H = .ok ()

/-- The start accepts valid inputs whose service is the one that was named, within the budget. -/
theorem check_ok : intent.check H = .ok () ↔
    intent.definition.check H = .ok () ∧
      intent.input.validateSchemaValue H intent.definition.inputSchema (64 * 1024) = .ok () ∧
      intent.serviceHash = intent.definition.serviceHash ∧
      intent.definition.amount ≤ intent.maxAmountAtomic := by
  simp only [check, JsError.raise, bind_eq_ok, JsError.throwIf_end, not_or, not_not, not_lt,
    gt_iff_lt]
  constructor
  · rintro ⟨_, h₁, _, h₂, h₃, h₄⟩
    exact ⟨h₁, h₂, h₃, h₄⟩
  · rintro ⟨h₁, h₂, h₃, h₄⟩
    exact ⟨_, h₁, _, h₂, h₃, h₄⟩

end ExecutorInput

/-! ### The order and the request -/

section Recognised

open Market (Transaction Tx State)

variable {Sig : Type} {T : ObolosMarketSettlement.Token} {H : Host}
  {E : Market.Deployment Sig} {keccak : List ℕ → Bytes32} {state : ExecutorState} {t₀ : T.Storage}
  {s : State T}
  {χ : List (Tr (State T) (Transaction Sig T))} {x : Tr (State T) (Transaction Sig T)}
  {o : ObolosMarketSettlement.Order} {a : Bytes32}

/-- The input of an accepted purchase can be hashed. -/
theorem hash_of_accepted (h : state.intent.Accepted H) :
    ∃ a, state.intent.input.canonicalJsonHash H = .ok a := by
  obtain ⟨-, hinput, -⟩ := ExecutorInput.check_ok.1 h.valid
  have hassert := (Json.validateSchemaValue_ok.1 hinput).1
  exact ⟨_, Json.canonicalJsonHash_ok.2 ⟨Json.assertJson_mono (by decide) hassert, rfl⟩⟩

theorem settlementOrder_ok (h : state.intent.input.canonicalJsonHash H = .ok a) :
    state.settlementOrder H = .ok o ↔
      o = ⟨state.intent.orderId, H.textHash state.intent.platformAgentId,
        state.intent.definition.category.index, state.intent.definition.seller,
        state.intent.definition.serviceHash, H.textHash state.intent.definition.unit,
        state.intent.definition.quantity, state.intent.definition.unitPriceAtomic,
        state.intent.definition.amount, a, state.intent.expiry, state.versions.policyVersion,
        state.versions.agentVersion, state.versions.feeVersion⟩ := by
  simp [ExecutorState.settlementOrder, h, eq_comm]

/-- The request of an accepted purchase, paid by the transaction with this hash. -/
def paidRequest (H : Host) (state : ExecutorState) (inputHash transactionHash : Bytes32) :
    ServiceRequest where
  orderId := state.intent.orderId
  agentId := H.textHash state.intent.platformAgentId
  payer := state.intent.payer
  serviceHash := state.intent.definition.serviceHash
  inputHash := inputHash
  category := state.intent.definition.category
  unit := state.intent.definition.unit
  quantity := state.intent.definition.quantity
  unitPriceAtomic := state.intent.definition.unitPriceAtomic
  amountAtomic := state.intent.definition.amount
  settlementAddress := state.intent.definition.settlementAddress
  ledgerAddress := state.intent.definition.ledgerAddress
  transactionHash := transactionHash
  input := state.intent.input

theorem paidRequest_check (h : state.intent.Accepted H)
    (ha : state.intent.input.canonicalJsonHash H = .ok a) (hash : Bytes32) :
    (paidRequest H state a hash).check H state.intent.definition = .ok () := by
  obtain ⟨-, hinput, -⟩ := ExecutorInput.check_ok.1 h.valid
  exact ServiceRequest.check_ok.2 ⟨⟨rfl, rfl, rfl, rfl, rfl, rfl, rfl, rfl⟩, ha, hinput⟩

/-- `requestFor(state)` does not throw. -/
theorem requestFor_ok (h : state.intent.Accepted H)
    (ha : state.intent.input.canonicalJsonHash H = .ok a) {hash : Bytes32}
    (hpaid : state.paymentHash = some hash) :
    state.requestFor H = .ok (paidRequest H state a hash) := by
  have horder := (settlementOrder_ok (o := _) ha).2 rfl
  have hcheck := paidRequest_check h ha hash
  unfold ExecutorState.requestFor
  rw [horder, hpaid]
  show ((paidRequest H state a hash).check H state.intent.definition >>= fun _ =>
    pure (paidRequest H state a hash)) = _
  rw [hcheck]
  rfl

/-- The request is read back from its JSON form as it is. -/
theorem paidRequest_parsed (haddress : ∀ a : Address, H.isAddress a.text = true)
    (h : state.intent.Accepted H) (hash : Bytes32) :
    (paidRequest H state a hash).Parsed H := by
  obtain ⟨x, hx⟩ := h.parsed
  obtain ⟨-, hquantity, hprice⟩ := ExecutorInput.parse_pos hx
  exact ⟨haddress _, haddress _, haddress _, hquantity, hprice, Nat.mul_pos hquantity hprice⟩

theorem deployed (h : state.intent.Accepted H) (hchain : E.settlement.chainid = chainId)
    (hsettlement : state.intent.definition.settlementAddress = E.settlement.self) :
    Deployed H E state.intent.definition :=
  ⟨hchain, hsettlement, (ExecutorInput.check_ok.1 h.valid).1⟩

/-- The contract computes the hash of a definition from its terms. -/
theorem serviceHash_onchain (hk : SameKeccak H E keccak) {service : ServiceDefinition}
    (hd : Deployed H E service) :
    service.serviceHash = ObolosMarketSettlement.serviceHash E.keccak E.settlement
      (service.onchain H).seller (service.onchain H).category (service.onchain H).unitHash
      (service.onchain H).quantity (service.onchain H).unitPrice (service.onchain H).endpointHash :=
  hd.serviceHash_eq hk

/-- The hash under which the seller has registered the terms of a definition is the hash of the
definition. -/
theorem registered_hash (hk : SameKeccak H E keccak) {service : ServiceDefinition}
    (hd : Deployed H E service) {e : Tr (State T) (Tx Sig T)} {id : Bytes32}
    (hreg : Market.Registers E id (service.onchain H) e) : id = service.serviceHash :=
  hreg.2.2.2.trans (serviceHash_onchain hk hd).symm

/-- The order passes the checks of `settle` on the service and the amount. -/
theorem guards_of_registered (hk : SameKeccak H E keccak) (h : state.intent.Accepted H)
    (hd : Deployed H E state.intent.definition) {τ : List (Tr (State T) (Tx Sig T))}
    (hrun : (Market.lts E T).Run (Market.init E t₀) τ s) {e : Tr (State T) (Tx Sig T)}
    {id : Bytes32} (he : e ∈ τ)
    (hreg : Market.Registers E id (state.intent.definition.onchain H) e)
    (ho : state.settlementOrder H = .ok o)
    (hword : state.intent.definition.quantity * state.intent.definition.unitPriceAtomic < 2 ^ 256) :
    ¬ ObolosMarketSettlement.serviceMismatch (s.world.settlement.services o.serviceHash) o ∧
      mulU 256 o.quantity o.unitPrice = .ok o.amount := by
  obtain ⟨a, ha⟩ := hash_of_accepted h
  obtain rfl := (settlementOrder_ok ha).1 ho
  obtain ⟨x, hx⟩ := h.parsed
  obtain ⟨hstored, hne⟩ := Market.stored_of_registers hrun he hreg
  rw [registered_hash hk hd hreg] at hstored
  constructor
  · simp only [ObolosMarketSettlement.serviceMismatch, hstored, not_or, not_not]
    exact ⟨(ExecutorInput.parse_pos hx).1, hne, rfl, rfl, rfl, rfl, rfl⟩
  · exact mulU_eq_ok.2 ⟨hword, rfl⟩

/-- The receipt of a transaction that settled the order is accepted for the request. -/
theorem verified_of_settled (hp : Pinned H E state.intent.definition)
    (hne : E.settlement.self ≠ E.settlement.ledger)
    (hrun : (Market.chain E T).Run (Market.init E t₀) χ s) (hx : x ∈ χ)
    {e : Tr (State T) (Tx Sig T)} (he : e ∈ x.lab.calls) (hc : e.lab.call = .settle o)
    (hs : e.lab.success = true) (hpayer : e.lab.msg.sender = state.intent.payer)
    (ha : state.intent.input.canonicalJsonHash H = .ok a)
    (ho : state.settlementOrder H = .ok o) :
    ∃ v, (paidRequest H state a x.lab.receipt.transactionHash).verifyServiceSettlement H
      state.intent.definition x.lab.receipt = .ok v := by
  have hstep := hrun.step_of_mem hx
  have hsuccess : x.lab.receipt.status = .success := by
    cases hstatus : x.lab.receipt.status with
    | success => rfl
    | reverted =>
      have hlogs := hstep.2.2.2
      rw [hstatus] at hlogs
      rw [hlogs.1] at he
      cases he
  have hlogs : Market.callLogs E e =
      [Market.orderPaid E (o.payment e.lab.msg.sender),
        Market.orderSettled E e.lab.msg.sender o e.post.world] := by
    simp [Market.callLogs, hc, hs]
  have hpaid := (Market.log_of_step hstep hsuccess (Or.inr rfl)).2 ⟨e, he, by
    rw [hlogs]; exact List.mem_cons_self⟩
  have hsettled := (Market.log_of_step hstep hsuccess (Or.inl rfl)).2 ⟨e, he, by
    rw [hlogs]; exact List.mem_cons_of_mem _ List.mem_cons_self⟩
  obtain rfl := (settlementOrder_ok ha).1 ho
  refine ⟨_, ServiceRequest.verifyServiceSettlement_ok.2 ⟨⟨hstep.2.1.trans hp.chainid, hsuccess,
    rfl⟩, ⟨_, hsettled, hp.settlement.symm, ?_⟩, ⟨_, hpaid, hp.ledger.symm, ?_, ?_⟩, rfl⟩⟩
  · simp [Market.orderSettled, ServiceRequest.settlesRequest, paidRequest, hpayer]
  · rw [hp.settlement]
    exact hne.symm
  · simp [Market.orderPaid, ServiceRequest.paysRequest, paidRequest,
      ObolosMarketSettlement.Order.payment]

/-- **A payment that went through is recognised.**  For an accepted input and the settlement
contract its definition names:

* the hash under which the seller registers the terms of the definition is the hash of the
  definition, and once they are registered the order passes the checks of `settle` on the service
  and the amount, as long as the amount is a word;
* when the definition names the ledger of the contract, and the payer has settled the order in a
  transaction: the request for that payment can be made, it is accepted in its JSON form, and it
  is accepted for the receipt of the transaction. -/
theorem payment_recognised (hk : SameKeccak H E keccak)
    (haddress : ∀ a : Address, H.isAddress a.text = true)
    (hne : E.settlement.self ≠ E.settlement.ledger) (hchain : E.settlement.chainid = chainId)
    (hrun : (Market.chain E T).Run (Market.init E t₀) χ s) (h : state.intent.Accepted H)
    (hsettlement : state.intent.definition.settlementAddress = E.settlement.self) :
    ∃ o, state.settlementOrder H = .ok o ∧
      (∀ e ∈ Market.calls χ, ∀ id,
        Market.Registers E id (state.intent.definition.onchain H) e →
          id = state.intent.definition.serviceHash ∧
          (state.intent.definition.quantity * state.intent.definition.unitPriceAtomic < 2 ^ 256 →
            ¬ ObolosMarketSettlement.serviceMismatch
                (s.world.settlement.services o.serviceHash) o ∧
              mulU 256 o.quantity o.unitPrice = .ok o.amount)) ∧
      (state.intent.definition.ledgerAddress = E.settlement.ledger →
        ∀ x ∈ χ, ∀ e ∈ x.lab.calls, e.lab.call = .settle o → e.lab.success = true →
          e.lab.msg.sender = state.intent.payer →
          ∃ request, ExecutorState.requestFor H
              { state with paymentHash := some x.lab.receipt.transactionHash } = .ok request ∧
            ServiceRequest.validate H state.intent.definition request.json = .ok request ∧
            ∃ v, request.verifyServiceSettlement H state.intent.definition x.lab.receipt =
              .ok v) := by
  obtain ⟨a, ha⟩ := hash_of_accepted h
  have ho := (settlementOrder_ok (o := _) ha).2 rfl
  have hd := deployed h hchain hsettlement
  refine ⟨_, ho, fun e he id hreg => ⟨registered_hash hk hd hreg, fun hword => ?_⟩,
    fun hledger x hx e he hc hs hpayer => ?_⟩
  · exact guards_of_registered hk h hd (Market.chain_run hrun) he hreg ho hword
  · refine ⟨paidRequest H state a x.lab.receipt.transactionHash, ?_, ?_, ?_⟩
    · exact @requestFor_ok H
        { state with paymentHash := some x.lab.receipt.transactionHash } a h ha _ rfl
    · rw [ServiceRequest.validate, ServiceRequest.parse_json (paidRequest_parsed haddress h _)]
      show ((paidRequest H state a _).check H _ >>= fun _ => pure _) = _
      rw [paidRequest_check h ha]
      rfl
    · exact verified_of_settled ⟨hd, hledger⟩ hne hrun hx he hc hs hpayer ha ho

end Recognised

/-! ### The purchase of the small deployment -/

namespace Demo

open Obolos.Demo (host deployment service order transactions paid)
open ObolosPolicyEnvelope.Demo (msg)

/-- A purchase of the service with the given definition. -/
def purchase (definition : ServiceDefinition) : ExecutorState where
  intent :=
    { origin := js "https://o", platformAgentId := js "x", orderId := 11, owner := 4, payer := 5,
      definition := definition, serviceHash := service.serviceHash, input := .null,
      maxAmountAtomic := 60, expiry := 50 }
  intentHash := 0
  versions := ⟨3, 2, 1⟩
  phase := .paying

/-- The definition with another ledger: its hash is the same. -/
def stray : ServiceDefinition := { service with ledgerAddress := 22 }

theorem parsed {definition : ServiceDefinition} (h : definition.Parsed host) :
    ExecutorInput.parse host (purchase definition).intent.json = .ok (purchase definition).intent :=
  ExecutorInput.parse_json ⟨rfl, rfl, (by decide : (11 : Bytes32) ≠ 0), rfl, rfl, h,
    (by decide : 0 < 60), (by decide : 0 < 50)⟩

/-- All that is evaluated of the purchase: its checks, and what the transactions did. -/
theorem purchase_evaluated :
    (service.inputSchema.isSchema host = true ∧ service.outputSchema.isSchema host = true) ∧
    (((purchase service).intent.check host).isOk = true ∧
      ((purchase stray).intent.check host).isOk = true) ∧
    (Json.assertJson host .null (128 * 1024)).isOk = true ∧
    ((Market.calls transactions).all (fun e => e.lab.success) = true ∧
      Market.settlements paid.lab.calls 11 = [(5, order)]) ∧
    paid.lab.receipt.logs.all (fun log => log.address ≠ 22) = true := by
  decide +kernel

theorem service_parsed : service.Parsed host :=
  ⟨rfl, rfl, rfl, rfl, by decide, by decide, by decide, by decide, purchase_evaluated.1.1,
    purchase_evaluated.1.2⟩

theorem accepted_service : (purchase service).intent.Accepted host :=
  ⟨⟨_, parsed service_parsed⟩, Json.ok_of_isOk purchase_evaluated.2.1.1⟩

theorem accepted_stray : (purchase stray).intent.Accepted host :=
  ⟨⟨_, parsed ⟨rfl, rfl, rfl, rfl, service_parsed.unit_pos, service_parsed.unit_le, by decide,
    by decide, service_parsed.inputSchema, service_parsed.outputSchema⟩⟩,
    Json.ok_of_isOk purchase_evaluated.2.1.2⟩

theorem registered :
    ∃ e ∈ Market.calls transactions,
      Market.Registers deployment service.serviceHash (service.onchain host) e := by
  have hmem : ∃ x ∈ Obolos.Demo.commands, x.2 = (msg 5 1 (by decide),
      .registerService 3 (host.textHash service.unit) 5 12 (host.textHash service.endpoint)) :=
    ⟨_, .tail _ (.tail _ (.tail _ (.tail _ (.tail _ (.tail _ (.head _)))))), rfl⟩
  obtain ⟨e, he, heq⟩ := Market.mem_calls_play.1 hmem
  obtain ⟨hmsg, hcall⟩ := Prod.mk.inj heq
  obtain ⟨hsuccess, -⟩ := purchase_evaluated.2.2.2.1
  refine ⟨e, he, List.all_eq_true.1 hsuccess e he, ?_, hcall,
    serviceHash_onchain Obolos.Demo.sameKeccak Obolos.Demo.accepted.pinned.toDeployed⟩
  rw [hmsg]
  rfl

theorem settled : ∃ e ∈ paid.lab.calls, e.lab.call = .settle order ∧ e.lab.success = true ∧
    e.lab.msg.sender = 5 := by
  obtain ⟨-, hone⟩ := purchase_evaluated.2.2.2.1
  exact Market.exists_of_mem_settlements (y := (5, order))
    (by rw [hone]; exact List.mem_cons_self) |>.imp fun e he => ⟨he.1, he.2.1, he.2.2.1, he.2.2.2.1⟩

theorem input_hash :
    Json.null.canonicalJsonHash host = .ok Obolos.Demo.request.inputHash :=
  Json.canonicalJsonHash_ok.2 ⟨Json.ok_of_isOk purchase_evaluated.2.2.1, rfl⟩

theorem order_service : (purchase service).settlementOrder host = .ok order := by
  have h : (purchase service).intent.input.canonicalJsonHash host =
      .ok Obolos.Demo.request.inputHash := input_hash
  exact (settlementOrder_ok h).2 rfl

theorem order_stray : (purchase stray).settlementOrder host = .ok order := by
  have h : (purchase stray).intent.input.canonicalJsonHash host =
      .ok Obolos.Demo.request.inputHash := input_hash
  exact (settlementOrder_ok h).2 rfl

/-- No contract at the address of the stray ledger logged anything. -/
theorem stray_refused (request : ServiceRequest) :
    ¬ ∃ v, request.verifyServiceSettlement host stray paid.lab.receipt = .ok v := by
  rintro ⟨v, hv⟩
  obtain ⟨-, -, ⟨log, hlog, haddress, -⟩, -⟩ := ServiceRequest.verifyServiceSettlement_ok.1 hv
  exact absurd haddress
    (of_decide_eq_true (List.all_eq_true.1 purchase_evaluated.2.2.2.2 log hlog))

theorem stray_request : ∃ request, ExecutorState.requestFor host
    { purchase stray with paymentHash := some paid.lab.receipt.transactionHash } = .ok request :=
  ⟨_, @requestFor_ok host
    { purchase stray with paymentHash := some paid.lab.receipt.transactionHash } _ accepted_stray
    input_hash _ rfl⟩

end Demo

/-- The purchase of the small deployment is recognised. -/
theorem payment_recognised_purchase :
    ∃ request, ExecutorState.requestFor Obolos.Demo.host
        { Demo.purchase Obolos.Demo.service with
          paymentHash := some Obolos.Demo.paid.lab.receipt.transactionHash } = .ok request ∧
      ∃ v, request.verifyServiceSettlement Obolos.Demo.host Obolos.Demo.service
        Obolos.Demo.paid.lab.receipt = .ok v := by
  obtain ⟨o, ho, -, hpaid⟩ := payment_recognised Obolos.Demo.sameKeccak (fun _ => rfl)
    (by decide) rfl Obolos.Demo.transactions_run Demo.accepted_service rfl
  obtain rfl := Except.ok.inj (Demo.order_service.symm.trans ho)
  obtain ⟨e, he, hcall, hsuccess, hsender⟩ := Demo.settled
  obtain ⟨request, hrequest, -, hv⟩ :=
    hpaid rfl _ Obolos.Demo.accepted.mem e he hcall hsuccess hsender
  exact ⟨request, hrequest, hv⟩

/-- An accepted input whose service is registered and whose order the payer has settled, but whose
definition names another ledger: the payment is not recognised. -/
theorem ledger_not_hashed :
    (Demo.purchase Demo.stray).intent.Accepted Obolos.Demo.host ∧
    Demo.stray.settlementAddress = Obolos.Demo.deployment.settlement.self ∧
    (∃ e ∈ Market.calls Obolos.Demo.transactions, Market.Registers Obolos.Demo.deployment
      Demo.stray.serviceHash (Demo.stray.onchain Obolos.Demo.host) e) ∧
    (∃ o, (Demo.purchase Demo.stray).settlementOrder Obolos.Demo.host = .ok o ∧
      ∃ e ∈ Obolos.Demo.paid.lab.calls, e.lab.call = .settle o ∧ e.lab.success = true ∧
        e.lab.msg.sender = (Demo.purchase Demo.stray).intent.payer) ∧
    ∃ request, ExecutorState.requestFor Obolos.Demo.host
        { Demo.purchase Demo.stray with
          paymentHash := some Obolos.Demo.paid.lab.receipt.transactionHash } = .ok request ∧
      ¬ ∃ v, request.verifyServiceSettlement Obolos.Demo.host Demo.stray
        Obolos.Demo.paid.lab.receipt = .ok v := by
  obtain ⟨request, hrequest⟩ := Demo.stray_request
  exact ⟨Demo.accepted_stray, rfl, Demo.registered, ⟨_, Demo.order_stray, Demo.settled⟩, request,
    hrequest, Demo.stray_refused request⟩

end Executor

end Obolos
