import Obolos.Contracts.Receipts
import Obolos.Economy.CanonicalJson
import Obolos.Economy.ServiceContract

/-!
# Verifying a payment

`verifyServiceSettlement` looks for two logs in the receipt of a transaction, one of the
settlement contract and one of the ledger, anywhere in it.  `verifyServiceSettlement_sound` : on a
chain that runs the three contracts, a receipt that is accepted belongs to a transaction that
settled the order once, for exactly the terms of the definition; and an order id stands for one
request.

The service hashes of the source and of the contract are the same function of the same words
(`serviceHash_eq`), so a definition names the service that was registered with its terms.
-/

namespace Obolos

open Market (Log Event ServiceReceipt ReceiptStatus Deployment Transaction Tx State)

/-! ### `verifyServiceSettlement` -/

/-- What `verifyServiceSettlement` returns. -/
structure VerifiedSettlement where
  chainId : ℕ
  orderId : Bytes32
  transactionHash : Bytes32
  serviceHash : Bytes32
  inputHash : Bytes32

namespace ServiceRequest

variable (H : Host) (service : ServiceDefinition) (request : ServiceRequest)

/-- `decodeEventLog({abi: marketAbi, …})`; `none` when it throws. -/
def decodeMarketLog : Event → Option Event
  | .ServiceRegistered a b c d e f g => some (.ServiceRegistered a b c d e f g)
  | .OrderSettled a b c d e f g h i j => some (.OrderSettled a b c d e f g h i j)
  | _ => none

/-- `decodeEventLog({abi: ledgerAbi, …})`; `none` when it throws. -/
def decodeLedgerLog : Event → Option Event
  | .OrderPaid a b c d e f g h i j => some (.OrderPaid a b c d e f g h i j)
  | .DeliveryAttested a b c => some (.DeliveryAttested a b c)
  | .BuyerAcknowledged a b c => some (.BuyerAcknowledged a b c)
  | .ObservationRecorded a b c d e f g h => some (.ObservationRecorded a b c d e f g h)
  | _ => none

/-- The event is `OrderSettled` with the order, the payer and the amount of the request. -/
def settlesRequest : Event → Bool
  | .OrderSettled orderId _ payer amount _ _ _ _ _ _ =>
    orderId = request.orderId ∧ payer = request.payer ∧ amount = request.amountAtomic
  | _ => false

/-- The event is `OrderPaid` with the terms of the service and of the request. -/
def paysRequest : Event → Bool
  | .OrderPaid orderId agentId seller serviceHash category unitHash quantity unitPrice amount
      inputHash =>
    orderId = request.orderId ∧ agentId = request.agentId ∧ seller = service.seller ∧
      serviceHash = service.serviceHash ∧ category = service.category.index ∧
      unitHash = H.textHash service.unit ∧ quantity = request.quantity ∧
      unitPrice = request.unitPriceAtomic ∧ amount = request.amountAtomic ∧
      inputHash = request.inputHash
  | _ => false

/-- The flags `settled` and `paid`. -/
structure Flags where
  settled : Bool
  paid : Bool

/-- The part of the loop's body that reads a log of the ledger. -/
def readLedgerLog (flags : Flags) (log : Log) : Flags :=
  if log.address = service.ledgerAddress then
    match decodeLedgerLog log.event with
    | none => flags  -- `decodeEventLog` throws, and the loop continues.
    | some event => { flags with paid := flags.paid || paysRequest H service request event }
  else flags

/-- The body of the loop over the logs. -/
def readLog (flags : Flags) (log : Log) : Flags :=
  if log.address = service.settlementAddress then
    match decodeMarketLog log.event with
    | none => flags  -- `decodeEventLog` throws, so the rest of the body is skipped.
    | some event =>
      readLedgerLog H service request
        { flags with settled := flags.settled || settlesRequest request event } log
  else readLedgerLog H service request flags log

/-- `verifyServiceSettlement(service, request, receipt)` -/
def verifyServiceSettlement (receipt : ServiceReceipt) : Except JsError VerifiedSettlement := do
  if receipt.chainId ≠ chainId ∨ receipt.status ≠ .success ∨
      receipt.transactionHash ≠ request.transactionHash then
    JsError.raise "Settlement receipt is not confirmed on Arc testnet"
  let flags := receipt.logs.foldl (readLog H service request) ⟨false, false⟩
  if !flags.settled || !flags.paid then
    JsError.raise "Receipt does not contain matching OrderSettled and OrderPaid events"
  return {
    chainId := Obolos.chainId
    orderId := request.orderId
    transactionHash := receipt.transactionHash
    serviceHash := service.serviceHash
    inputHash := request.inputHash }

variable {H service request} {receipt : ServiceReceipt}

/-! ### What it finds -/

theorem exists_of_settlesRequest {event : Event} (h : settlesRequest request event = true) :
    ∃ h q r v b p f,
      event = .OrderSettled request.orderId h request.payer request.amountAtomic q r v b p f := by
  cases event with
  | OrderSettled orderId orderHash payer amount q r v b p f =>
    obtain ⟨rfl, rfl, rfl⟩ : _ ∧ _ ∧ _ := of_decide_eq_true h
    exact ⟨orderHash, q, r, v, b, p, f, rfl⟩
  | _ => cases h

theorem paysRequest_iff {event : Event} :
    paysRequest H service request event = true ↔
      event = .OrderPaid request.orderId request.agentId service.seller service.serviceHash
        service.category.index (H.textHash service.unit) request.quantity request.unitPriceAtomic
        request.amountAtomic request.inputHash := by
  cases event <;> simp [paysRequest]

/-- The log is the `OrderSettled` that is looked for. -/
abbrev IsSettled (service : ServiceDefinition) (request : ServiceRequest) (log : Log) : Prop :=
  log.address = service.settlementAddress ∧ settlesRequest request log.event = true

/-- The log is the `OrderPaid` that is looked for.  A log of the settlement contract has been
decoded as one of its own events first, and that fails for `OrderPaid`. -/
abbrev IsPaid (H : Host) (service : ServiceDefinition) (request : ServiceRequest) (log : Log) :
    Prop :=
  log.address = service.ledgerAddress ∧ log.address ≠ service.settlementAddress ∧
    paysRequest H service request log.event = true

theorem readLedgerLog_settled (flags : Flags) (log : Log) :
    (readLedgerLog H service request flags log).settled = flags.settled := by
  unfold readLedgerLog
  split
  · split <;> rfl
  · rfl

theorem readLedgerLog_paid (flags : Flags) (log : Log) :
    (readLedgerLog H service request flags log).paid = true ↔
      flags.paid = true ∨
        log.address = service.ledgerAddress ∧ paysRequest H service request log.event = true := by
  unfold readLedgerLog
  by_cases ha : log.address = service.ledgerAddress
  · rw [if_pos ha]
    cases log.event <;> simp [decodeLedgerLog, paysRequest, ha]
  · simp [ha]

theorem readLog_settled (flags : Flags) (log : Log) :
    (readLog H service request flags log).settled = true ↔
      flags.settled = true ∨ IsSettled service request log := by
  unfold readLog IsSettled
  by_cases ha : log.address = service.settlementAddress
  · rw [if_pos ha]
    cases log.event <;> simp [decodeMarketLog, readLedgerLog_settled, settlesRequest, ha]
  · rw [if_neg ha, readLedgerLog_settled]
    simp [ha]

theorem readLog_paid (flags : Flags) (log : Log) :
    (readLog H service request flags log).paid = true ↔
      flags.paid = true ∨ IsPaid H service request log := by
  unfold readLog IsPaid
  by_cases ha : log.address = service.settlementAddress
  · rw [if_pos ha]
    have hnone : decodeMarketLog log.event = none ∨
        paysRequest H service request log.event = false := by
      cases log.event <;> simp [decodeMarketLog, paysRequest]
    split
    · simp [ha]
    · rename_i event he
      rcases hnone with h | h
      · rw [h] at he; cases he
      · rw [readLedgerLog_paid]
        simp [ha, h]
  · rw [if_neg ha, readLedgerLog_paid]
    simp [ha]

theorem foldl_readLog (H : Host) (service : ServiceDefinition) (request : ServiceRequest)
    (logs : List Log) (flags : Flags) :
    ((logs.foldl (readLog H service request) flags).settled = true ↔
      flags.settled = true ∨ ∃ log ∈ logs, IsSettled service request log) ∧
    ((logs.foldl (readLog H service request) flags).paid = true ↔
      flags.paid = true ∨ ∃ log ∈ logs, IsPaid H service request log) := by
  induction logs generalizing flags with
  | nil => simp
  | cons log logs ih =>
    obtain ⟨hsettled, hpaid⟩ := ih (readLog H service request flags log)
    constructor
    · rw [List.foldl_cons, hsettled, readLog_settled, or_assoc]
      simp only [List.mem_cons, exists_eq_or_imp]
    · rw [List.foldl_cons, hpaid, readLog_paid, or_assoc]
      simp only [List.mem_cons, exists_eq_or_imp]

/-- A receipt is accepted when it is a successful one of the named transaction and has both
logs. -/
theorem verifyServiceSettlement_ok {v : VerifiedSettlement} :
    verifyServiceSettlement H service request receipt = .ok v ↔
      (receipt.chainId = chainId ∧ receipt.status = .success ∧
        receipt.transactionHash = request.transactionHash) ∧
      (∃ log ∈ receipt.logs, IsSettled service request log) ∧
      (∃ log ∈ receipt.logs, IsPaid H service request log) ∧
      v = ⟨chainId, request.orderId, receipt.transactionHash, service.serviceHash,
        request.inputHash⟩ := by
  obtain ⟨hsettled, hpaid⟩ :=
    foldl_readLog H service request receipt.logs ⟨false, false⟩
  simp only [Bool.false_eq_true, false_or] at hsettled hpaid
  rw [← hsettled, ← hpaid]
  unfold verifyServiceSettlement
  generalize receipt.logs.foldl (readLog H service request) ⟨false, false⟩ = flags
  obtain ⟨settled, paid⟩ := flags
  by_cases hc : receipt.chainId ≠ chainId ∨ receipt.status ≠ .success ∨
      receipt.transactionHash ≠ request.transactionHash
  · rw [if_pos hc]
    constructor
    · intro h; cases h
    · rintro ⟨⟨h₁, h₂, h₃⟩, -⟩
      exact absurd hc (by simp [h₁, h₂, h₃])
  · rw [if_neg hc]
    simp only [not_or, not_not] at hc
    cases settled <;> cases paid
    case true.true =>
      constructor
      · intro h; exact ⟨hc, rfl, rfl, (Except.ok.inj h).symm⟩
      · rintro ⟨-, -, -, rfl⟩; rfl
    all_goals
      constructor
      · intro h; cases h
      · rintro ⟨-, h₁, h₂, -⟩; simp at h₁ h₂

end ServiceRequest

/-! ### Definitions of the deployed contracts -/

section Soundness

variable {Sig : Type} {T : ObolosMarketSettlement.Token} {H : Host} {E : Deployment Sig}
  {keccak : List ℕ → Bytes32} {service service' : ServiceDefinition}
  {request request' : ServiceRequest}

/-- The services hash with the `keccak256` of the chain. -/
structure SameKeccak (H : Host) (E : Deployment Sig) (keccak : List ℕ → Bytes32) : Prop where
  words : ∀ ws, H.wordsHash ws = E.keccak.words ws
  text : ∀ s, H.textHash s = keccak s.utf8

/-- A valid definition for the deployed settlement contract on Arc testnet. -/
structure Deployed (H : Host) (E : Deployment Sig) (service : ServiceDefinition) : Prop where
  chainid : E.settlement.chainid = chainId
  settlement : service.settlementAddress = E.settlement.self
  valid : service.check H = .ok ()

/-- A valid definition for the deployed settlement contract and its ledger. -/
structure Pinned (H : Host) (E : Deployment Sig) (service : ServiceDefinition) : Prop extends
  Deployed H E service where
  ledger : service.ledgerAddress = E.settlement.ledger

/-- The terms of a definition as the settlement contract stores them. -/
def ServiceDefinition.onchain (H : Host) (service : ServiceDefinition) :
    ObolosMarketSettlement.Service where
  seller := service.seller
  category := service.category.index
  unitHash := H.textHash service.unit
  quantity := service.quantity
  unitPrice := service.unitPriceAtomic
  endpointHash := H.textHash service.endpoint

/-- The words under the hash of a registered service. -/
def serviceWords (D : ObolosMarketSettlement.Params) (x : ObolosMarketSettlement.Service) :
    List ℕ :=
  [D.chainid, D.self.toNat, x.seller.toNat, x.category, x.unitHash.toNat, x.quantity, x.unitPrice,
    x.endpointHash.toNat]

theorem serviceWords_inj {D : ObolosMarketSettlement.Params}
    {x y : ObolosMarketSettlement.Service} (h : serviceWords D x = serviceWords D y) : x = y := by
  simp only [serviceWords, List.cons.injEq, BitVec.toNat_inj, true_and, and_true] at h
  obtain ⟨h₁, h₂, h₃, h₄, h₅, h₆⟩ := h
  cases x
  cases y
  simp_all

/-- The two sources hash the same words. -/
theorem Deployed.words (h : Deployed H E service) :
    service.words H = serviceWords E.settlement (service.onchain H) := by
  rw [ServiceTerms.words, serviceWords, h.chainid, h.settlement]
  rfl

/-- **The service hashes agree**: the hash of a definition is the one under which the contract
registers its terms. -/
theorem Deployed.serviceHash_eq (h : Deployed H E service) (hk : SameKeccak H E keccak) :
    service.serviceHash = E.keccak.words (serviceWords E.settlement (service.onchain H)) := by
  obtain ⟨-, -, -, -, hhash⟩ := ServiceDefinition.check_ok.1 h.valid
  rw [← hhash, hk.words, h.words]

/-! ### Soundness -/

variable {t₀ : T.Storage} {s : State T} {χ : List (Tr (State T) (Transaction Sig T))}
  {x x' : Tr (State T) (Transaction Sig T)} {used : Set (ServiceDefinition × ServiceRequest)}

/-- What the services registered during a run hash. -/
def registeredWords (E : Deployment Sig) (τ : List (Tr (State T) (Tx Sig T))) : Set (List ℕ) :=
  {ws | ∃ e ∈ τ, ∃ id x, Market.Registers E id x e ∧ ws = serviceWords E.settlement x}

/-- `keccak256` has no collision on what is hashed: the registered services, and the services, the
units and the inputs of the definitions and requests in use. -/
structure NoCollision (H : Host) (E : Deployment Sig) (keccak : List ℕ → Bytes32)
    (χ : List (Tr (State T) (Transaction Sig T)))
    (used : Set (ServiceDefinition × ServiceRequest)) : Prop where
  words : Set.InjOn E.keccak.words (registeredWords E (Market.calls χ) ∪
    {ws | ∃ p ∈ used, ws = serviceWords E.settlement (p.1.onchain H)})
  texts : Set.InjOn keccak {bytes | ∃ p ∈ used, bytes = p.1.unit.utf8 ∨
    bytes = (p.2.input.canonicalJson H.numerals).utf8}

/-- A definition, a request and the receipt of a transaction of the chain that are accepted. -/
structure Accepted (H : Host) (E : Deployment Sig) (χ : List (Tr (State T) (Transaction Sig T)))
    (service : ServiceDefinition) (request : ServiceRequest)
    (x : Tr (State T) (Transaction Sig T)) : Prop where
  mem : x ∈ χ
  pinned : Pinned H E service
  distinct : request.input.Distinct
  valid : request.check H service = .ok ()
  verified : ∃ v, request.verifyServiceSettlement H service x.lab.receipt = .ok v

/-- The call settles the order of the request: sent by its payer, for the service registered by
the seller with the terms of the definition, for that amount, agent and input. -/
structure SettlesFor (H : Host) (service : ServiceDefinition) (request : ServiceRequest)
    (e : Tr (State T) (Tx Sig T)) (o : ObolosMarketSettlement.Order) : Prop where
  call : e.lab.call = .settle o
  success : e.lab.success = true
  payer : e.lab.msg.sender = request.payer
  orderId : o.orderId = request.orderId
  agentId : o.agentId = request.agentId
  registered : e.pre.world.settlement.services service.serviceHash = service.onchain H
  serviceHash : o.serviceHash = service.serviceHash
  seller : o.seller = service.seller
  category : o.category = service.category.index
  unitHash : o.unitHash = H.textHash service.unit
  quantity : o.quantity = service.quantity
  unitPrice : o.unitPrice = service.unitPriceAtomic
  amount : o.amount = service.amount
  inputHash : request.input.canonicalJsonHash H = .ok o.inputHash

/-- The same request, up to the order of keys in its input. -/
structure ServiceRequest.Same (request request' : ServiceRequest) : Prop where
  fields : { request with input := request'.input } = request'
  input : request.input.Same request'.input

/-- What the settlement contract has stored under the hash of a definition when an order for it is
settled: the terms of the definition, registered by the seller. -/
theorem stored_of_settle {τ : List (Tr (State T) (Tx Sig T))} {W : Set (List ℕ)}
    (hk : SameKeccak H E keccak) (h : (Market.lts E T).Run (Market.init E t₀) τ s)
    (hW : Set.InjOn E.keccak.words W) (hτ : registeredWords E τ ⊆ W)
    (hp : Deployed H E service) (hservice : serviceWords E.settlement (service.onchain H) ∈ W)
    {e : Tr (State T) (Tx Sig T)} {o : ObolosMarketSettlement.Order} (he : e ∈ τ)
    (hc : e.lab.call = .settle o) (hs : e.lab.success = true)
    (ho : o.serviceHash = service.serviceHash) :
    e.pre.world.settlement.services service.serviceHash = service.onchain H ∧
      ∃ e' ∈ τ, Market.Registers E service.serviceHash (service.onchain H) e' := by
  obtain ⟨τ₁, τ₂, rfl⟩ := List.append_of_mem he
  obtain ⟨h₁, hst, -⟩ := h.split_at
  have hmatch := (Market.settled_of_step hst hc hs).service
  simp only [ObolosMarketSettlement.serviceMismatch, not_or, not_not] at hmatch
  obtain ⟨e', he', hreg⟩ := Market.registered h₁ o.serviceHash hmatch.2.1
  rw [ho] at hreg
  have hmem : e' ∈ τ₁ ++ e :: τ₂ := List.mem_append_left _ he'
  have heq : e.pre.world.settlement.services service.serviceHash = service.onchain H := by
    refine serviceWords_inj (hW (hτ ⟨e', hmem, _, _, hreg, rfl⟩) hservice ?_)
    rw [← hp.serviceHash_eq hk]
    exact hreg.2.2.2.symm
  rw [heq] at hreg
  exact ⟨heq, e', hmem, hreg⟩

/-- An accepted receipt has one call that settled the order. -/
theorem settlesFor_of_accepted (hk : SameKeccak H E keccak)
    (h : (Market.chain E T).Run (Market.init E t₀) χ s) (hfree : NoCollision H E keccak χ used)
    (hused : (service, request) ∈ used) (ha : Accepted H E χ service request x) :
    ∃ e ∈ x.lab.calls, ∃ o, SettlesFor H service request e o ∧
      Market.settlements x.lab.calls request.orderId = [(request.payer, o)] ∧
      ∃ e' ∈ Market.calls χ, Market.Registers E service.serviceHash (service.onchain H) e' := by
  obtain ⟨v, hv⟩ := ha.verified
  obtain ⟨⟨-, hstatus, -⟩, ⟨ls, hls, hsettled⟩, ⟨lp, hlp, hpaid⟩, -⟩ :=
    ServiceRequest.verifyServiceSettlement_ok.1 hv
  obtain ⟨⟨-, -, -, hq, hp, ham, -, -⟩, hinput, -⟩ := ServiceRequest.check_ok.1 ha.valid
  have hstep := h.step_of_mem ha.mem
  have hrun := Market.chain_run h
  obtain ⟨ha₁, hev₁⟩ := hsettled
  obtain ⟨ha₂, -, hev₂⟩ := hpaid
  obtain ⟨address₁, event₁⟩ := ls
  obtain ⟨address₂, event₂⟩ := lp
  obtain ⟨_, _, _, _, _, _, _, rfl⟩ := ServiceRequest.exists_of_settlesRequest hev₁
  obtain rfl := ServiceRequest.paysRequest_iff.1 hev₂
  -- The two logs come from calls of the transaction, and these are settlements of the order.
  obtain ⟨e, he, hl⟩ := (Market.log_of_step hstep hstatus
    (Or.inl (ha₁.trans ha.pinned.settlement))).1 hls
  obtain ⟨o, hcall, hsuccess, hid, hpayer, hamount⟩ := Market.settlement_of_orderSettled hl
  have hmem := Market.mem_calls ha.mem he
  have hours := Market.ours_of_settle hrun hmem hcall hsuccess
  obtain ⟨e', he', hl'⟩ := (Market.log_of_step hstep hstatus
    (Or.inr (ha₂.trans ha.pinned.ledger))).1 hlp
  have hmem' := Market.mem_calls ha.mem he'
  rcases Market.settlement_of_orderPaid hl' with ⟨p, hp⟩ | ⟨o', hcall', hsuccess', hid', hterms⟩
  · exact absurd hp (Market.not_recordPaid_of_mem hrun hours hmem' (Market.success_of_callLogs hl') p)
  -- They are the same settlement, as an order is settled once.
  have hset := Market.mem_settlements he hcall hsuccess
  have hset' := Market.mem_settlements he' hcall' hsuccess'
  rw [hid] at hset
  rw [hid'] at hset'
  obtain ⟨-, hone⟩ := Market.settlement_unique h ha.mem ha.mem hset hset'
  rw [hone] at hset'
  obtain ⟨-, rfl⟩ : _ ∧ o' = o := by simpa using hset'
  obtain ⟨hagent, hseller, hhash, hcategory, hunit, hquantity, hprice, hamount', hinput'⟩ := hterms
  obtain ⟨hstored, hreg⟩ := stored_of_settle hk hrun hfree.words Set.subset_union_left
    ha.pinned.toDeployed (Or.inr ⟨_, hused, rfl⟩) hmem hcall hsuccess hhash
  refine ⟨e, he, o', ⟨hcall, hsuccess, hpayer, hid, hagent, hstored, hhash, hseller, hcategory,
    hunit, hquantity.trans hq, hprice.trans hp, ?_, ?_⟩, ?_, hreg⟩
  · rw [hamount, ham, hq, hp]; rfl
  · rw [hinput, hinput']
  · rw [hone, hpayer]

/-- A unit has no lone surrogates. -/
theorem wellFormed_unit {c : ResourceCategory} {unit : JsString} (h : unit ∈ c.normalizedUnits) :
    unit.wellFormed = true := by
  cases c <;> simp only [ResourceCategory.normalizedUnits, List.mem_cons, List.not_mem_nil,
    or_false] at h
  case storage =>
    rcases h with rfl | rfl <;> exact JsString.wellFormed_js _
  all_goals
    subst h
    exact JsString.wellFormed_js _

/-- **Soundness of payment verification.**  On a chain that runs the three contracts, with hashes
that do not collide on what is hashed:

* a transaction whose receipt is accepted for a definition and a request made exactly one
  settlement of the order: by the payer of the request, for the service that the seller registered
  with the terms of the definition, with its amount, the agent and the hash of the input;
* two accepted requests with one order id are the same request, and it is one transaction that
  paid it. -/
theorem verifyServiceSettlement_sound (hk : SameKeccak H E keccak)
    (h : (Market.chain E T).Run (Market.init E t₀) χ s) (hfree : NoCollision H E keccak χ used) :
    (∀ service request x, (service, request) ∈ used → Accepted H E χ service request x →
      ∃ e ∈ x.lab.calls, ∃ o, SettlesFor H service request e o ∧
        Market.settlements x.lab.calls request.orderId = [(request.payer, o)] ∧
        ∃ e' ∈ Market.calls χ, Market.Registers E service.serviceHash (service.onchain H) e') ∧
    ∀ service request x service' request' x', (service, request) ∈ used →
      (service', request') ∈ used → Accepted H E χ service request x →
      Accepted H E χ service' request' x' → request.orderId = request'.orderId →
        request.Same request' ∧ x = x' := by
  refine ⟨fun service request x hused ha => settlesFor_of_accepted hk h hfree hused ha, ?_⟩
  intro service request x service' request' x' hused hused' ha ha' hid
  obtain ⟨e, -, o, hset, hone, -⟩ := settlesFor_of_accepted hk h hfree hused ha
  obtain ⟨e', -, o', hset', hone', -⟩ := settlesFor_of_accepted hk h hfree hused' ha'
  rw [← hid] at hone'
  have hy : (request.payer, o) ∈ Market.settlements x.lab.calls request.orderId := by simp [hone]
  have hy' : (request'.payer, o') ∈ Market.settlements x'.lab.calls request.orderId := by
    simp [hone']
  obtain ⟨rfl, -⟩ := Market.settlement_unique h ha.mem ha'.mem hy hy'
  rw [hone] at hone'
  obtain ⟨hpayer, rfl⟩ : request.payer = request'.payer ∧ o = o' := by simpa using hone'
  -- One settlement, so the two definitions have the hash of its service.
  have hservice : service.onchain H = service'.onchain H := by
    refine serviceWords_inj (hfree.words (Or.inr ⟨_, hused, rfl⟩) (Or.inr ⟨_, hused', rfl⟩) ?_)
    rw [← ha.pinned.serviceHash_eq hk, ← ha'.pinned.serviceHash_eq hk, ← hset.serviceHash,
      hset'.serviceHash]
  simp only [ServiceDefinition.onchain, ObolosMarketSettlement.Service.mk.injEq] at hservice
  obtain ⟨-, hcategory, hunit, hquantity, hprice, -⟩ := hservice
  have hcategory := ResourceCategory.index_inj hcategory
  have hunit : service.unit = service'.unit := by
    have hu := (ServiceDefinition.check_ok.1 ha.pinned.valid).1
    have hu' := (ServiceDefinition.check_ok.1 ha'.pinned.valid).1
    rw [hk.text, hk.text] at hunit
    exact JsString.utf8_inj (wellFormed_unit hu) (wellFormed_unit hu')
      (hfree.texts ⟨_, hused, Or.inl rfl⟩ ⟨_, hused', Or.inl rfl⟩ hunit)
  have hinput : request.input.Same request'.input :=
    Json.same_of_canonicalJsonHash hk.text hfree.texts ha.distinct ha'.distinct hset.inputHash
      hset'.inputHash ⟨_, hused, Or.inr rfl⟩ ⟨_, hused', Or.inr rfl⟩
  obtain ⟨⟨h₁, h₂, h₃, h₄, h₅, h₆, h₇, h₈⟩, hi, -⟩ := ServiceRequest.check_ok.1 ha.valid
  obtain ⟨⟨h₁', h₂', h₃', h₄', h₅', h₆', h₇', h₈'⟩, hi', -⟩ := ServiceRequest.check_ok.1 ha'.valid
  obtain ⟨v, hv⟩ := ha.verified
  obtain ⟨v', hv'⟩ := ha'.verified
  obtain ⟨⟨-, -, htx⟩, -⟩ := ServiceRequest.verifyServiceSettlement_ok.1 hv
  obtain ⟨⟨-, -, htx'⟩, -⟩ := ServiceRequest.verifyServiceSettlement_ok.1 hv'
  have hagent := hset.agentId.symm.trans hset'.agentId
  have hserviceHash : request.serviceHash = request'.serviceHash := by
    rw [h₁, h₁', ← hset.serviceHash, ← hset'.serviceHash]
  have hinputHash : request.inputHash = request'.inputHash := by
    rw [hset.inputHash] at hi
    rw [hset'.inputHash] at hi'
    exact (Except.ok.inj hi).symm.trans (Except.ok.inj hi')
  have hamount : request.amountAtomic = request'.amountAtomic := by
    rw [h₆, h₆', h₄, h₅, h₄', h₅', hquantity, hprice]
  have hsettlement : request.settlementAddress = request'.settlementAddress := by
    rw [h₇, h₇', ha.pinned.settlement, ha'.pinned.settlement]
  have hledger : request.ledgerAddress = request'.ledgerAddress := by
    rw [h₈, h₈', ha.pinned.ledger, ha'.pinned.ledger]
  have hquantity : request.quantity = request'.quantity := by rw [h₄, h₄', hquantity]
  have hprice : request.unitPriceAtomic = request'.unitPriceAtomic := by rw [h₅, h₅', hprice]
  have hcategory : request.category = request'.category := by rw [h₂, h₂', hcategory]
  have hunit : request.unit = request'.unit := by rw [h₃, h₃', hunit]
  refine ⟨⟨?_, hinput⟩, rfl⟩
  rw [hagent, hserviceHash, hinputHash, hamount, hsettlement, hledger, hquantity, hprice,
    hcategory, hunit, hpayer, hid, ← htx, htx']

end Soundness

/-! ### A paid order -/

namespace Demo

open ObolosPolicyEnvelope.Demo (msg sign limits controller_sender owner_sender executor_sender
  seller_sender)

/-- The host of the canonical JSON example, with the hash of the small deployment. -/
def host : Host :=
  { Json.exampleHost with wordsHash := ObolosPolicyEnvelope.Demo.keccak.words }

/-- The small deployment, on Arc testnet. -/
def deployment : Deployment Bytes32 :=
  { Market.Demo.deployment with
    settlement := ⟨chainId, 7, 20, 21, 30, 31, Market.Demo.self_ne, Market.Demo.reserve_ne,
      Market.Demo.reviewPool_ne⟩ }

theorem sameKeccak : SameKeccak host deployment Json.exampleDigest := ⟨fun _ => rfl, fun _ => rfl⟩

/-- `{"type":"null"}` -/
def schema : Json := .obj [(js "type", .str (js "null"))]

/-- The terms of a service: five jobs at a price of twelve. -/
def terms : ServiceTerms where
  settlementAddress := 7
  ledgerAddress := 21
  seller := 6
  endpoint := js "https://a"
  category := .verification
  unit := js "verification-job"
  quantity := 5
  unitPriceAtomic := 12
  inputSchema := schema
  outputSchema := schema

/-- Its definition. -/
def service : ServiceDefinition := { terms with serviceHash := host.wordsHash (terms.words host) }

/-- The identifier of the agent `x`. -/
def agentId : Bytes32 := host.textHash (js "x")

/-- The request for order `11`, paid in transaction `1`. -/
def request : ServiceRequest where
  orderId := 11
  agentId := agentId
  payer := 5
  serviceHash := service.serviceHash
  inputHash := host.textHash (Json.canonicalJson host.numerals .null)
  category := .verification
  unit := js "verification-job"
  quantity := 5
  unitPriceAtomic := 12
  amountAtomic := 60
  settlementAddress := 7
  ledgerAddress := 21
  transactionHash := 1
  input := .null

/-- The order for the settlement contract. -/
def order : ObolosMarketSettlement.Order where
  orderId := 11
  agentId := agentId
  category := 3
  seller := 6
  serviceHash := service.serviceHash
  unitHash := host.textHash service.unit
  quantity := 5
  unitPrice := 12
  amount := 60
  inputHash := request.inputHash
  deadline := 50
  policyVersion := 3
  agentVersion := 2
  feeVersion := 1

/-- Wiring, enrollment, the mandate and the service, and then the settlement. -/
def commands : List (Bytes32 × Msg × Market.Call Bytes32 ObolosMarketSettlement.erc20) :=
  [(0, msg 0 0 controller_sender, .policy (.wireSettlement 7)),
    (0, msg 0 0 controller_sender, .policy (.bindExecutor 5 4 0 50 (sign (.executorOwner 5 4) 0 50))),
    (0, msg 0 0 controller_sender, .policy (.setCategory 3 limits 0 50 (sign (.category 3 limits) 1 50))),
    (0, msg 3 1 owner_sender, .policy (.registerAgent agentId 5 150 120 3600)),
    (0, msg 3 1 owner_sender, .policy (.setCounterparty agentId 3 6 true)),
    (0, msg 0 1 controller_sender, .ledger (.wireSettlement 7)),
    (0, msg 5 1 seller_sender, .registerService 3 (host.textHash service.unit) 5 12
      (host.textHash service.endpoint)),
    (1, msg 4 2 executor_sender, .settle order)]

/-- The state right after the deployment. -/
def start : State ObolosMarketSettlement.erc20 := Market.init deployment Market.Demo.tokens

/-- The transactions. -/
def transactions : List (Tr (State ObolosMarketSettlement.erc20)
    (Transaction Bytes32 ObolosMarketSettlement.erc20)) :=
  (LTS.play (Market.transact deployment) start commands).1

instance decidableExternal (a : Address) : Decidable (deployment.External a) :=
  inferInstanceAs (Decidable (_ ∧ _))

theorem transactions_run : (Market.chain deployment _).Run start transactions
    (LTS.play (Market.transact deployment) start commands).2 :=
  Market.transact_run start commands (by decide +kernel)

/-- The transaction with the settlement. -/
def paid : Tr (State ObolosMarketSettlement.erc20)
    (Transaction Bytes32 ObolosMarketSettlement.erc20) :=
  transactions.getLast (List.cons_ne_nil _ _)

theorem paid_verified :
    ∃ v, request.verifyServiceSettlement host service paid.lab.receipt = .ok v := by
  have hok : (request.verifyServiceSettlement host service paid.lab.receipt).isOk = true := by
    decide +kernel
  generalize request.verifyServiceSettlement host service paid.lab.receipt = r at hok ⊢
  cases r with
  | ok v => exact ⟨v, rfl⟩
  | error e => cases hok

theorem accepted : Accepted host deployment transactions service request paid where
  mem := List.getLast_mem _
  pinned := ⟨⟨rfl, rfl, Json.ok_of_isOk (by decide +kernel)⟩, rfl⟩
  distinct := .null
  valid := Json.ok_of_isOk (by decide +kernel)
  verified := paid_verified

theorem noCollision :
    NoCollision host deployment Json.exampleDigest transactions {(service, request)} where
  words := by
    -- One service is registered, that of the definition.
    have hregistered : ∀ ws ∈ registeredWords deployment (Market.calls transactions),
        ws = serviceWords deployment.settlement (service.onchain host) := by
      rintro ws ⟨e, he, id, x, hreg, rfl⟩
      obtain ⟨c, hc, heq⟩ := Market.mem_calls_play.2 ⟨e, he, rfl⟩
      obtain ⟨hmsg, hcall⟩ : c.2.1 = e.lab.msg ∧ c.2.2 = e.lab.call := Prod.mk.inj heq
      obtain ⟨-, hsender, hcall', -⟩ := hreg
      rw [← hmsg] at hsender
      rw [← hcall] at hcall'
      simp only [commands, List.mem_cons, List.not_mem_nil, or_false] at hc
      rcases hc with rfl | rfl | rfl | rfl | rfl | rfl | rfl | rfl <;>
        simp only [reduceCtorEq, Market.Call.registerService.injEq] at hcall'
      obtain ⟨h₁, h₂, h₃, h₄, h₅⟩ := hcall'
      have hx : x = service.onchain host := by
        obtain ⟨seller, category, unitHash, quantity, unitPrice, endpointHash⟩ := x
        simp only at h₁ h₂ h₃ h₄ h₅ hsender
        rw [← h₁, ← h₂, ← h₃, ← h₄, ← h₅, ← hsender]
        rfl
      rw [hx]
    refine Set.Subsingleton.injOn (fun ws hws ws' hws' => ?_) _
    have hone : ∀ ws ∈ registeredWords deployment (Market.calls transactions) ∪
        {ws | ∃ p ∈ ({(service, request)} : Set _),
          ws = serviceWords deployment.settlement (p.1.onchain host)},
        ws = serviceWords deployment.settlement (service.onchain host) := by
      rintro ws (hws | ⟨p, hp, hws⟩)
      · exact hregistered ws hws
      · rwa [Set.mem_singleton_iff.1 hp] at hws
    rw [hone ws hws, hone ws' hws']
  texts := by
    have hne : Json.exampleDigest service.unit.utf8 ≠
        Json.exampleDigest (request.input.canonicalJson host.numerals).utf8 := by decide +kernel
    have htwo : ∀ bytes ∈ {bytes | ∃ p ∈ ({(service, request)} : Set _),
          bytes = p.1.unit.utf8 ∨ bytes = (p.2.input.canonicalJson host.numerals).utf8},
        bytes = service.unit.utf8 ∨
          bytes = (request.input.canonicalJson host.numerals).utf8 := by
      rintro bytes ⟨p, hp, h⟩
      rwa [Set.mem_singleton_iff.1 hp] at h
    intro a ha b hb h
    rcases htwo a ha with ha | ha <;> rcases htwo b hb with hb | hb <;> rw [ha, hb] at h ⊢
    · exact absurd h hne
    · exact absurd h.symm hne

end Demo

/-- The transaction made exactly the settlement of order `11`. -/
theorem verifyServiceSettlement_sound_paid :
    ∃ o, Market.settlements Demo.paid.lab.calls 11 = [(5, o)] ∧
      o.serviceHash = Demo.service.serviceHash ∧ o.amount = 60 := by
  have h := verifyServiceSettlement_sound Demo.sameKeccak Demo.transactions_run Demo.noCollision
  obtain ⟨e, -, o, hset, hone, -⟩ := h.1 Demo.service Demo.request Demo.paid rfl Demo.accepted
  exact ⟨o, hone, hset.serviceHash, hset.amount⟩

end Obolos
