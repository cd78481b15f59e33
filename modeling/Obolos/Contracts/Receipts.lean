import Obolos.Contracts.MarketFees
import Obolos.Contracts.MarketOrders

/-!
# Transactions and their receipts

`Market.lts` moves by one call of the contracts at a time.  A transaction may make several such
calls (a bundle of smart accounts, a batch of one account), and its receipt lists the logs of all
of them between the logs of any other contract.  `chain` is the transition system of whole
transactions, `chain_run` says that its runs are runs of the contracts.

`settlement_of_orderSettled`, `settlement_of_orderPaid` : a log of a receipt names the call that
emitted it.  `settlement_unique` : an order is settled by one call of one transaction.
-/

namespace Obolos

namespace Market

open ObolosMarketSettlement (Token World Order Settled orderHash)

/-- The events of the settlement contract and of the ledger, and any other one. -/
inductive Event
  | ServiceRegistered (serviceHash : Bytes32) (seller : Address) (category : ℕ)
      (unitHash : Bytes32) (quantity unitPrice : ℕ) (endpointHash : Bytes32)
  | OrderSettled (orderId orderHash : Bytes32) (payer : Address)
      (amount sellerAmount reserveAmount reviewAmount rebateAmount policyVersion feeVersion : ℕ)
  | OrderPaid (orderId agentId : Bytes32) (seller : Address) (serviceHash : Bytes32)
      (category : ℕ) (unitHash : Bytes32) (quantity unitPrice amount : ℕ) (inputHash : Bytes32)
  | BuyerAcknowledged (orderId : Bytes32) (payer : Address) (outputHash : Bytes32)
  | DeliveryAttested (orderId : Bytes32) (seller : Address) (outputHash : Bytes32)
  | ObservationRecorded (observationHash metricId : Bytes32) (windowStart windowEnd : ℕ)
      (value : BitVec 256) (baseline : ℕ) (inputRoot methodologyHash : Bytes32)
  | AttesterChanged (previous current : Address)
  | other
  deriving DecidableEq

/-- A log: the contract that emitted it, and the event. -/
structure Log where
  address : Address
  event : Event
  deriving DecidableEq

/-- The status of a receipt. -/
inductive ReceiptStatus
  | success | reverted
  deriving DecidableEq, Repr

/-- `ServiceReceipt` -/
structure ServiceReceipt where
  chainId : ℕ
  status : ReceiptStatus
  transactionHash : Bytes32
  logs : List Log

variable {Sig : Type} {T : Token}

section Logs

variable (E : Deployment Sig)

/-- `emit OrderPaid(…)` of `recordPaid` -/
def orderPaid (p : ObolosEconomicLedger.Payment) : Log where
  address := E.settlement.ledger
  event := .OrderPaid p.orderId p.agentId p.seller p.serviceHash p.category p.unitHash p.quantity
    p.unitPrice p.amount p.inputHash

/-- `emit OrderSettled(…)` of `settle`, after the call left the storage `w`. -/
def orderSettled (payer : Address) (o : Order) (w : World T) : Log :=
  let r := o.amount * w.policy.reserveBps / 10000
  let v := o.amount * w.policy.reviewBps / 10000
  { address := E.settlement.self
    event := .OrderSettled o.orderId (orderHash E.keccak E.settlement payer o) payer o.amount
      (o.amount - r - v) r v 0 o.policyVersion o.feeVersion }

/-- What the ledger logs. -/
def ledgerLogs (m : Msg) (l : ObolosEconomicLedger.State) : ObolosEconomicLedger.Call → List Log
  | .wireSettlement _ => []
  | .setAttester target => [⟨E.settlement.ledger, .AttesterChanged l.attester target⟩]
  | .recordPaid p => [orderPaid E p]
  | .attestDelivery orderId outputHash =>
    [⟨E.settlement.ledger, .DeliveryAttested orderId m.sender outputHash⟩]
  | .acknowledgeDelivery orderId outputHash =>
    [⟨E.settlement.ledger, .BuyerAcknowledged orderId m.sender outputHash⟩]
  | .recordObservation o =>
    [⟨E.settlement.ledger, .ObservationRecorded
      (ObolosEconomicLedger.observationHash E.keccak E.ledger o) o.metricId o.start o.stop o.value
      o.baseline o.inputRoot o.methodologyHash⟩]

/-- What the settlement contract and the ledger log during a call.  The events of the policy and
of the token are left out: nothing here reads them. -/
def callLogs (e : Tr (State T) (Tx Sig T)) : List Log :=
  if e.lab.success then
    match e.lab.call with
    | .policy _ => []
    | .ledger c => ledgerLogs E e.lab.msg e.pre.world.ledger c
    | .registerService category unitHash quantity unitPrice endpointHash =>
      [⟨E.settlement.self, .ServiceRegistered
        (ObolosMarketSettlement.serviceHash E.keccak E.settlement e.lab.msg.sender category unitHash
          quantity unitPrice endpointHash)
        e.lab.msg.sender category unitHash quantity unitPrice endpointHash⟩]
    | .settle o =>
      [orderPaid E (o.payment e.lab.msg.sender),
        orderSettled E e.lab.msg.sender o e.post.world]
    | .token _ => []
  else []

end Logs

/-- A transaction: the calls of the contracts that it makes, in order, and its receipt. -/
structure Transaction (Sig : Type) (T : Token) where
  calls : List (Tr (State T) (Tx Sig T))
  receipt : ServiceReceipt

variable (E : Deployment Sig)

/-- The log is one of the settlement contract or of the ledger. -/
abbrev Watched (l : Log) : Prop := l.address = E.settlement.self ∨ l.address = E.settlement.ledger

/-- Transactions, one after the other.  The calls of one transaction are made in one block, in any
number and by any accounts; its receipt has their logs in order, between any logs of other
contracts.  A reverted transaction made no calls and has no logs. -/
def chain (T : Token) : LTS (State T) (Transaction Sig T) where
  step s x s' := (lts E T).Run s x.calls s' ∧ x.receipt.chainId = E.settlement.chainid ∧
    (∀ e ∈ x.calls, ∀ e' ∈ x.calls, e.lab.msg.timestamp = e'.lab.msg.timestamp) ∧
    match x.receipt.status with
    | .success => x.receipt.logs.filter (fun l => Watched E l) = x.calls.flatMap (callLogs E)
    | .reverted => x.calls = [] ∧ x.receipt.logs = []

/-- The calls of a list of transactions. -/
def calls (χ : List (Tr (State T) (Transaction Sig T))) : List (Tr (State T) (Tx Sig T)) :=
  χ.flatMap fun x => x.lab.calls

variable {E} {t₀ : T.Storage} {s u : State T} {x : Transaction Sig T}
  {χ : List (Tr (State T) (Transaction Sig T))}

theorem calls_append (χ χ' : List (Tr (State T) (Transaction Sig T))) :
    calls (χ ++ χ') = calls χ ++ calls χ' := List.flatMap_append

theorem mem_calls {x : Tr (State T) (Transaction Sig T)} {e : Tr (State T) (Tx Sig T)}
    (hx : x ∈ χ) (he : e ∈ x.lab.calls) : e ∈ calls χ := List.mem_flatMap.2 ⟨x, hx, he⟩

/-- The transactions run the contracts. -/
theorem chain_run (h : (chain E T).Run s χ u) : (lts E T).Run s (calls χ) u := by
  induction h with
  | nil => exact .nil _
  | @snoc t v χ x h hst ih =>
    have hcalls : calls [(⟨t, x, v⟩ : Tr (State T) (Transaction Sig T))] = x.calls := by
      simp [calls]
    rw [calls_append, hcalls]
    exact ih.append hst.1

/-! ### The call behind a log -/

/-- A log of the two contracts in a successful receipt was emitted by a call of the transaction. -/
theorem log_of_step (h : (chain E T).step s x u) (hs : x.receipt.status = .success) {l : Log}
    (hw : Watched E l) : l ∈ x.receipt.logs ↔ ∃ e ∈ x.calls, l ∈ callLogs E e := by
  obtain ⟨-, -, -, hlogs⟩ := h
  rw [hs] at hlogs
  rw [← List.mem_flatMap, ← hlogs, List.mem_filter]
  simp [hw]

theorem success_of_callLogs {e : Tr (State T) (Tx Sig T)} {l : Log} (h : l ∈ callLogs E e) :
    e.lab.success = true := by
  by_contra hs
  simp [callLogs, hs] at h

/-- `OrderSettled` is emitted by a settlement of that order, payer and amount. -/
theorem settlement_of_orderSettled {e : Tr (State T) (Tx Sig T)} {a : Address}
    {orderId h : Bytes32} {payer : Address} {amount q r v b p f : ℕ}
    (hl : ⟨a, .OrderSettled orderId h payer amount q r v b p f⟩ ∈ callLogs E e) :
    ∃ o, e.lab.call = .settle o ∧ e.lab.success = true ∧ o.orderId = orderId ∧
      e.lab.msg.sender = payer ∧ o.amount = amount := by
  have hs := success_of_callLogs hl
  simp only [callLogs, hs, ↓reduceIte] at hl
  cases hc : e.lab.call with
  | settle o =>
    rw [hc] at hl
    simp only [orderPaid, orderSettled, List.mem_cons, Log.mk.injEq, reduceCtorEq, and_false,
      false_or, Event.OrderSettled.injEq, List.not_mem_nil, or_false] at hl
    obtain ⟨-, h₁, -, h₂, h₃, -⟩ := hl
    exact ⟨o, rfl, hs, h₁.symm, h₂.symm, h₃.symm⟩
  | ledger c =>
    rw [hc] at hl
    cases c <;> simp [ledgerLogs, orderPaid] at hl
  | _ =>
    rw [hc] at hl
    simp at hl

/-- `OrderPaid` is emitted by a settlement of exactly these terms, or by `recordPaid` itself. -/
theorem settlement_of_orderPaid {e : Tr (State T) (Tx Sig T)} {a : Address}
    {orderId agentId : Bytes32} {seller : Address} {serviceHash : Bytes32} {category : ℕ}
    {unitHash : Bytes32} {quantity unitPrice amount : ℕ} {inputHash : Bytes32}
    (hl : ⟨a, .OrderPaid orderId agentId seller serviceHash category unitHash quantity unitPrice
      amount inputHash⟩ ∈ callLogs E e) :
    (∃ p, e.lab.call = .ledger (.recordPaid p)) ∨
    ∃ o, e.lab.call = .settle o ∧ e.lab.success = true ∧ o.orderId = orderId ∧
      o.agentId = agentId ∧ o.seller = seller ∧ o.serviceHash = serviceHash ∧
      o.category = category ∧ o.unitHash = unitHash ∧ o.quantity = quantity ∧
      o.unitPrice = unitPrice ∧ o.amount = amount ∧ o.inputHash = inputHash := by
  have hs := success_of_callLogs hl
  simp only [callLogs, hs, ↓reduceIte] at hl
  cases hc : e.lab.call with
  | settle o =>
    rw [hc] at hl
    simp only [orderPaid, orderSettled, ObolosMarketSettlement.Order.payment, List.mem_cons,
      Log.mk.injEq, reduceCtorEq, and_false, or_false, Event.OrderPaid.injEq,
      List.not_mem_nil] at hl
    obtain ⟨-, h₁, h₂, h₃, h₄, h₅, h₆, h₇, h₈, h₉, h₁₀⟩ := hl
    exact Or.inr ⟨o, rfl, hs, h₁.symm, h₂.symm, h₃.symm, h₄.symm, h₅.symm, h₆.symm, h₇.symm,
      h₈.symm, h₉.symm, h₁₀.symm⟩
  | ledger c =>
    rw [hc] at hl
    cases c with
    | recordPaid p => exact Or.inl ⟨p, rfl⟩
    | _ => simp [ledgerLogs] at hl
  | _ =>
    rw [hc] at hl
    simp at hl

/-! ### One settlement for one order -/

theorem settlements_append (τ σ : List (Tr (State T) (Tx Sig T))) (id : Bytes32) :
    settlements (τ ++ σ) id = settlements τ id ++ settlements σ id := by
  simp [settlements]

theorem mem_settlements {τ : List (Tr (State T) (Tx Sig T))} {e : Tr (State T) (Tx Sig T)}
    {o : Order} (he : e ∈ τ) (hc : e.lab.call = .settle o) (hs : e.lab.success = true) :
    (e.lab.msg.sender, o) ∈ settlements τ o.orderId := by
  refine List.mem_filter.2 ⟨List.mem_filterMap.2 ⟨e, he, settled?_of_settle hc hs⟩, ?_⟩
  simp

theorem exists_of_mem_settlements {τ : List (Tr (State T) (Tx Sig T))} {y : Address × Order}
    {id : Bytes32} (hy : y ∈ settlements τ id) :
    ∃ e ∈ τ, e.lab.call = .settle y.2 ∧ e.lab.success = true ∧ e.lab.msg.sender = y.1 ∧
      y.2.orderId = id := by
  obtain ⟨hy, hid⟩ := List.mem_filter.1 hy
  obtain ⟨e, he, hset⟩ := List.mem_filterMap.1 hy
  unfold Tx.settled? at hset
  split at hset
  · rename_i o hc
    split_ifs at hset with hs
    obtain rfl : (e.lab.msg.sender, o) = y := Option.some.inj hset
    exact ⟨e, he, hc, hs, rfl, by simpa using hid⟩
  · cases hset

/-- A settlement of a run is the only one of its order. -/
theorem settlements_eq_singleton {τ : List (Tr (State T) (Tx Sig T))}
    (h : (lts E T).Run (init E t₀) τ s) (hours : Ours E s.world.ledger.settlement)
    {y : Address × Order} {id : Bytes32} (hy : y ∈ settlements τ id) : settlements τ id = [y] := by
  rcases settlements_eq h hours id with ⟨-, hnil⟩ | ⟨-, x, hx, -⟩
  · rw [hnil] at hy; cases hy
  · rw [hx] at hy ⊢
    rw [List.mem_singleton.1 hy]

/-- A ledger that a settlement found wired to its contract stays so. -/
theorem ours_of_settle {τ : List (Tr (State T) (Tx Sig T))}
    (h : (lts E T).Run (init E t₀) τ s) {e : Tr (State T) (Tx Sig T)} {o : Order} (he : e ∈ τ)
    (hc : e.lab.call = .settle o) (hs : e.lab.success = true) :
    Ours E s.world.ledger.settlement := by
  have hwired : ∀ {τ} {v u : State T}, (lts E T).Run v τ u →
      v.world.ledger.settlement = E.settlement.self →
      u.world.ledger.settlement = E.settlement.self := by
    intro τ v u hrun hv
    refine hrun.invariant (I := fun s => s.world.ledger.settlement = E.settlement.self) hv ?_
    intro s tx u hI hst
    rcases ledger_step hst with ⟨c, -, -, hch⟩ | ⟨o, -, -, hset⟩ | ⟨he, -⟩
    · rw [ObolosEconomicLedger.settlement_change hch (by rw [hI]; exact E.settlement.self_ne), hI]
    · rw [ObolosEconomicLedger.settlement_change (recordPaid_of_settled hset)
        (by rw [hI]; exact E.settlement.self_ne), hI]
    · rw [he, hI]
  obtain ⟨τ₁, τ₂, rfl⟩ := List.append_of_mem he
  obtain ⟨h₁, hst, h₂⟩ := h.split_at
  have hset := settled_of_step hst hc hs
  exact Or.inr (hwired (LTS.Run.cons_iff.2 ⟨rfl, hst, h₂⟩) hset.ledgerWired)

/-- Nobody calls `recordPaid` directly on a ledger that is ours. -/
theorem not_recordPaid_of_mem {τ : List (Tr (State T) (Tx Sig T))}
    (h : (lts E T).Run (init E t₀) τ s) (hours : Ours E s.world.ledger.settlement)
    {e : Tr (State T) (Tx Sig T)} (he : e ∈ τ) (hs : e.lab.success = true)
    (p : ObolosEconomicLedger.Payment) : e.lab.call ≠ .ledger (.recordPaid p) := by
  intro hc
  obtain ⟨τ₁, τ₂, rfl⟩ := List.append_of_mem he
  obtain ⟨-, hst, h₂⟩ := h.split_at
  have hours' := ours_of_step hst (ours_of_run h₂ hours)
  rcases step_cases hst with ⟨-, hch⟩ | ⟨hf, -⟩
  · rw [hc] at hch
    generalize e.post.world = w at hch
    cases hch with
    | ledger change => exact not_recordPaid change (step_external hst) hours' p rfl
  · rw [hs] at hf; cases hf

/-- The one settlement of an order is made by one call of one transaction: any two transactions
with a settlement of the order are the same one, and it makes no other. -/
theorem settlement_unique (h : (chain E T).Run (init E t₀) χ s)
    {x x' : Tr (State T) (Transaction Sig T)} (hx : x ∈ χ) (hx' : x' ∈ χ) {id : Bytes32}
    {y y' : Address × Order} (hy : y ∈ settlements x.lab.calls id)
    (hy' : y' ∈ settlements x'.lab.calls id) :
    x = x' ∧ settlements x.lab.calls id = [y] := by
  have hours : Ours E s.world.ledger.settlement := by
    obtain ⟨e, he, hc, hs, -⟩ := exists_of_mem_settlements hy
    exact ours_of_settle (chain_run h) (mem_calls hx he) hc hs
  have hmem : ∀ {z : Tr (State T) (Transaction Sig T)} {σ}, z ∈ σ →
      ∀ {a}, a ∈ settlements z.lab.calls id → a ∈ settlements (calls σ) id := by
    intro z σ hz a ha
    obtain ⟨σ₁, σ₂, rfl⟩ := List.append_of_mem hz
    rw [calls_append, settlements_append]
    refine List.mem_append_right _ ?_
    have hcons : calls (z :: σ₂) = z.lab.calls ++ calls σ₂ := rfl
    rw [hcons, settlements_append]
    exact List.mem_append_left _ ha
  have hone := settlements_eq_singleton (chain_run h) hours (hmem hx hy)
  obtain ⟨χ₁, χ₂, rfl⟩ := List.append_of_mem hx
  have hcons : calls (x :: χ₂) = x.lab.calls ++ calls χ₂ := rfl
  rw [calls_append, hcons, settlements_append, settlements_append] at hone
  -- The one element of the list is in the middle part, so the other two parts are empty.
  have hlength := congrArg List.length hone
  simp only [List.length_append, List.length_singleton] at hlength
  have hpos := List.length_pos_of_mem hy
  have hnil : settlements (calls χ₁) id = [] ∧ settlements (calls χ₂) id = [] :=
    ⟨List.eq_nil_of_length_eq_zero (by omega), List.eq_nil_of_length_eq_zero (by omega)⟩
  rw [hnil.1, hnil.2, List.nil_append, List.append_nil] at hone
  refine ⟨?_, hone⟩
  rcases List.mem_append.1 hx' with hx' | hx'
  · have := hmem hx' hy'
    rw [hnil.1] at this
    cases this
  · rcases List.mem_cons.1 hx' with rfl | hx'
    · rfl
    · have := hmem hx' hy'
      rw [hnil.2] at this
      cases this

/-! ### Executing transactions of one call -/

theorem watched_of_callLogs {e : Tr (State T) (Tx Sig T)} {l : Log} (h : l ∈ callLogs E e) :
    Watched E l := by
  have hs := success_of_callLogs h
  simp only [callLogs, hs, ↓reduceIte] at h
  cases hc : e.lab.call with
  | ledger c =>
    rw [hc] at h
    cases c <;> simp only [ledgerLogs, orderPaid, List.mem_singleton, List.not_mem_nil] at h <;>
      exact Or.inr (by rw [h])
  | registerService category unitHash quantity unitPrice endpointHash =>
    rw [hc] at h
    exact Or.inl (by rw [List.mem_singleton.1 h])
  | settle o =>
    rw [hc] at h
    simp only [List.mem_cons, List.not_mem_nil, or_false] at h
    rcases h with rfl | rfl
    · exact Or.inr rfl
    · exact Or.inl rfl
  | _ =>
    rw [hc] at h
    cases h

section Play

variable (E)

/-- Perform one call in a transaction of its own, with this hash. -/
def transact (s : State T) (x : Bytes32 × Msg × Call Sig T) : Tr (State T) (Transaction Sig T) :=
  let e := perform E s x.2
  ⟨s, ⟨[e], ⟨E.settlement.chainid, .success, x.1, callLogs E e⟩⟩, e.post⟩

variable {E}

/-- Transactions of one admissible call each. -/
theorem transact_run (s : State T) (cs : List (Bytes32 × Msg × Call Sig T))
    (h : LTS.Playable (transact E) (fun s x => Admissible E s x.2) s cs) :
    (chain E T).Run s (LTS.play (transact E) s cs).1 (LTS.play (transact E) s cs).2 := by
  refine LTS.Run.play (A := chain E T) (fun s x hx => ⟨rfl, ?_⟩) s cs h
  refine ⟨perform_run (LTS.Run.nil s) hx, rfl, fun e he e' he' => ?_, ?_⟩
  · rw [List.mem_singleton.1 he, List.mem_singleton.1 he']
  · show (callLogs E _).filter _ = [_].flatMap _
    rw [List.filter_eq_self.2 fun l hl => by simpa using watched_of_callLogs hl]
    simp

/-- The calls of such transactions are the given ones. -/
theorem calls_play (s : State T) (cs : List (Bytes32 × Msg × Call Sig T)) :
    (calls (LTS.play (transact E) s cs).1).map (fun e => (e.lab.msg, e.lab.call)) =
      cs.map Prod.snd := by
  induction cs generalizing s with
  | nil => rfl
  | cons x cs ih =>
    have hcons : calls (LTS.play (transact E) s (x :: cs)).1 =
        perform E s x.2 :: calls (LTS.play (transact E) (transact E s x).post cs).1 := rfl
    rw [hcons, List.map_cons, List.map_cons, ih, perform_msg, perform_call]

theorem mem_calls_play {s : State T} {cs : List (Bytes32 × Msg × Call Sig T)}
    {y : Msg × Call Sig T} :
    (∃ x ∈ cs, x.2 = y) ↔
      ∃ e ∈ calls (LTS.play (transact E) s cs).1, (e.lab.msg, e.lab.call) = y := by
  rw [← List.mem_map, ← calls_play s cs, List.mem_map]

variable (E) in
/-- Perform several calls in one transaction, with this hash. -/
def bundle (s : State T) (hash : Bytes32) (cs : List (Msg × Call Sig T)) :
    Tr (State T) (Transaction Sig T) :=
  let played := LTS.play (perform E) s cs
  ⟨s, ⟨played.1, ⟨E.settlement.chainid, .success, hash, played.1.flatMap (callLogs E)⟩⟩, played.2⟩

end Play

end Market

end Obolos
