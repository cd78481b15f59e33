import Obolos.Contracts.LedgerOrders
import Obolos.Contracts.Market
import Obolos.Contracts.PolicyAccounting

/-!
# Three copies of "this order exists"

The policy marks consumed orders, the settlement contract keeps order hashes, and the ledger
keeps the orders themselves.  `Joint` relates the three, as far as the policy and the ledger are
not wired to some other contract; `joint_change` : every external call keeps it.

`orders_agree` : what follows for a wired market, over every run.
-/

namespace Obolos

namespace Market

open ObolosMarketSettlement (Token World Order Settled internal orderHash)
open ObolosEconomicLedger (LedgerOk PaidTo DeliveredBy AcknowledgedOf)

variable {Sig : Type} {T : Token} {E : Deployment Sig} {m : Msg} {w w' : World T}
  {c : Call Sig T}

/-- Not wired yet, or wired to the settlement contract of the deployment. -/
def Ours (E : Deployment Sig) (a : Address) : Prop := a = 0 ∨ a = E.settlement.self

/-- An external caller is not what `Ours` stands for. -/
theorem not_sender_of_ours {a : Address} (ha : Ours E a) (hext : E.External m.sender) :
    m.sender ≠ a := by
  rintro rfl
  exact ha.elim m.sender_ne hext.1

/-- The three copies agree, and the ledger is well formed. -/
structure Joint (E : Deployment Sig) (w : World T) : Prop where
  ledgerOk : Ours E w.ledger.settlement → LedgerOk w.ledger
  ledger : Ours E w.ledger.settlement →
    ∀ id, w.settlement.orderHashes id ≠ 0 ↔ (w.ledger.orders id).seller ≠ 0
  policy : Ours E w.policy.settlement →
    ∀ id, w.policy.consumed id = true ↔ w.settlement.orderHashes id ≠ 0

theorem joint_init (t : T.Storage) : Joint E (init E t).world where
  ledgerOk _ := ObolosEconomicLedger.ledgerOk_init
  ledger _ id := by simp [init, ObolosMarketSettlement.init, ObolosEconomicLedger.init]
  policy _ id := by simp [init, ObolosMarketSettlement.init, ObolosPolicyEnvelope.init]

/-! ### What an external call does to the three copies -/

/-- The policy is wired once. -/
theorem policy_settlement_change {K : Keccak} {Z : OpenZeppelin Sig}
    {P : ObolosPolicyEnvelope.Params} {p p' : ObolosPolicyEnvelope.State}
    {c : ObolosPolicyEnvelope.Call Sig} (hc : ObolosPolicyEnvelope.Change K Z P m p c p')
    (h : p.settlement ≠ 0) : p'.settlement = p.settlement := by
  cases hc with
  | wireSettlement sender unwired code => exact absurd unwired h
  | _ => rfl

/-- A policy wired to us was ours before. -/
theorem ours_of_policy_change {K : Keccak} {Z : OpenZeppelin Sig}
    {P : ObolosPolicyEnvelope.Params} {p p' : ObolosPolicyEnvelope.State}
    {c : ObolosPolicyEnvelope.Call Sig} (hc : ObolosPolicyEnvelope.Change K Z P m p c p')
    (h : Ours E p'.settlement) : Ours E p.settlement := by
  by_cases h₀ : p.settlement = 0
  · exact Or.inl h₀
  · rwa [policy_settlement_change hc h₀] at h

/-- A ledger wired to us was ours before. -/
theorem ours_of_ledger_change {K : Keccak} {L : ObolosEconomicLedger.Params}
    {l l' : ObolosEconomicLedger.State} {c : ObolosEconomicLedger.Call}
    (hc : ObolosEconomicLedger.Change K L m l c l') (h : Ours E l'.settlement) :
    Ours E l.settlement := by
  by_cases h₀ : l.settlement = 0
  · exact Or.inl h₀
  · rwa [ObolosEconomicLedger.settlement_change hc h₀] at h

/-- Nobody but the settlement contract records a payment in a ledger that is ours. -/
theorem not_recordPaid {K : Keccak} {L : ObolosEconomicLedger.Params}
    {l l' : ObolosEconomicLedger.State} {c : ObolosEconomicLedger.Call}
    (hc : ObolosEconomicLedger.Change K L m l c l') (hext : E.External m.sender)
    (h : Ours E l.settlement) (p : ObolosEconomicLedger.Payment) : c ≠ .recordPaid p := by
  rintro rfl
  cases hc with
  | recordPaid sender fresh => exact not_sender_of_ours h hext sender

/-- The payment of a settlement, as a change of the ledger. -/
theorem recordPaid_of_settled {o : Order} (h : Settled E.keccak E.settlement m o w w') :
    ObolosEconomicLedger.Change E.keccak E.ledger (internal E.settlement m) w.ledger
      (.recordPaid (o.payment m.sender)) w'.ledger := by
  obtain ⟨hsender, hfresh, -, hw⟩ := ObolosEconomicLedger.recordPaid_ok.1 h.recorded
  rw [hw]
  exact .recordPaid hsender hfresh

theorem seller_ne_of_settled {o : Order} (h : Settled E.keccak E.settlement m o w w') :
    o.seller ≠ 0 := by
  have hs := h.service
  simp only [ObolosMarketSettlement.serviceMismatch, not_or, not_not] at hs
  rw [hs.2.2.1]
  exact hs.2.1

/-- The order a settlement records in the ledger. -/
theorem orders_of_settled {o : Order} (h : Settled E.keccak E.settlement m o w w') :
    w'.ledger.orders = Function.update w.ledger.orders o.orderId
      ⟨m.sender, o.seller, o.serviceHash, o.inputHash, 0, false⟩ := by
  obtain ⟨-, -, -, hw⟩ := ObolosEconomicLedger.recordPaid_ok.1 h.recorded
  rw [hw]
  rfl

/-- Every external call keeps the three copies in agreement. -/
theorem joint_change (hK : ∀ ws, E.keccak.words ws ≠ 0) (hext : E.External m.sender)
    (hJ : Joint E w) (hc : Change E m w c w') : Joint E w' := by
  cases hc with
  | @policy c p exec =>
    have hch := ObolosPolicyEnvelope.change_of_exec exec
    refine ⟨hJ.ledgerOk, hJ.ledger, fun hours id => ?_⟩
    have hours' := ours_of_policy_change hch hours
    rw [ObolosPolicyEnvelope.consumed_change hch id, ← hJ.policy hours' id, or_iff_left]
    -- A direct `consume` would have to come from the settlement contract.
    intro hcons
    cases hch with
    | consume permitted _ _ => exact not_sender_of_ours hours' hext permitted.sender
    | _ => exact hcons
  | @ledger c l change =>
    refine ⟨fun hours => ?_, fun hours id => ?_, hJ.policy⟩
    · have hours' := ours_of_ledger_change change hours
      exact ObolosEconomicLedger.ledgerOk_change (hJ.ledgerOk hours') change
        fun p hp => absurd hp (not_recordPaid change hext hours' p)
    · have hours' := ours_of_ledger_change change hours
      rw [hJ.ledger hours' id]
      rcases ObolosEconomicLedger.terms_change change id with ht | ⟨-, p, hp, -⟩
      · rw [show (l.orders id).seller = _ from congrArg (fun x => x.2.1) ht]
        rfl
      · exact absurd hp (not_recordPaid change hext hours' p)
  | registerService registered =>
    obtain ⟨-, -, rfl⟩ := ObolosMarketSettlement.registerService_ok.1 registered
    exact ⟨hJ.ledgerOk, hJ.ledger, hJ.policy⟩
  | @settle o _ settled =>
    have hours : Ours E w.ledger.settlement := Or.inr settled.ledgerWired
    have hours' : Ours E w.policy.settlement := Or.inr settled.policyWired
    have hhash : orderHash E.keccak E.settlement m.sender o ≠ 0 := hK _
    have hseller := seller_ne_of_settled settled
    obtain ⟨-, wa, wc, -, -, hw⟩ := ObolosPolicyEnvelope.consume_ok.1 settled.consumed
    refine ⟨fun _ => ?_, fun _ id => ?_, fun _ id => ?_⟩
    · refine ObolosEconomicLedger.ledgerOk_change (hJ.ledgerOk hours)
        (recordPaid_of_settled settled) fun p hp => ?_
      obtain rfl : o.payment m.sender = p := by simpa using hp
      exact hseller
    · rw [settled.marked, orders_of_settled settled]
      by_cases hid : id = o.orderId
      · subst hid
        simp only [Function.update_self]
        exact iff_of_true hhash hseller
      · simpa [hid] using hJ.ledger hours id
    · rw [settled.marked, hw]
      by_cases hid : id = o.orderId
      · subst hid
        simp only [ObolosPolicyEnvelope.spend, Order.spend, Function.update_self]
        exact iff_of_true trivial hhash
      · simpa [ObolosPolicyEnvelope.spend, Order.spend, hid] using hJ.policy hours' id
  | token => exact ⟨hJ.ledgerOk, hJ.ledger, hJ.policy⟩

/-! ### Runs -/

variable {t₀ : T.Storage} {s u : State T} {tx : Tx Sig T} {τ σ : List (Tr (State T) (Tx Sig T))}

theorem joint_run (hK : ∀ ws, E.keccak.words ws ≠ 0) (h : (lts E T).Run (init E t₀) τ s) :
    Joint E s.world :=
  run_invariant h (joint_init t₀) fun _ _ _ _ hext hJ hc => joint_change hK hext hJ hc

/-- What one transaction does to the ledger: one call of the ledger, which is a payment if the
transaction is a settlement, or nothing. -/
theorem ledger_step (h : (lts E T).step s tx u) :
    (∃ c, tx.call = .ledger c ∧ tx.success = true ∧
      ObolosEconomicLedger.Change E.keccak E.ledger tx.msg s.world.ledger c u.world.ledger) ∨
    (∃ o, tx.call = .settle o ∧ tx.success = true ∧
      Settled E.keccak E.settlement tx.msg o s.world u.world) ∨
    (u.world.ledger = s.world.ledger ∧ (tx.success = false ∨ ∀ o, tx.call ≠ .settle o)) := by
  rcases step_cases h with ⟨hs, hc⟩ | ⟨hf, he⟩
  · generalize hcall : tx.call = c at hc
    generalize u.world = w' at hc ⊢
    cases hc with
    | ledger change => exact Or.inl ⟨_, rfl, hs, change⟩
    | settle settled => exact Or.inr (Or.inl ⟨_, rfl, hs, settled⟩)
    | _ => exact Or.inr (Or.inr ⟨rfl, Or.inr fun o => by simp⟩)
  · exact Or.inr (Or.inr ⟨by rw [he], Or.inl hf⟩)

theorem ours_of_step (h : (lts E T).step s tx u) (hours : Ours E u.world.ledger.settlement) :
    Ours E s.world.ledger.settlement := by
  rcases ledger_step h with ⟨c, -, -, hc⟩ | ⟨o, -, -, hset⟩ | ⟨he, -⟩
  · exact ours_of_ledger_change hc hours
  · exact Or.inr hset.ledgerWired
  · rwa [he] at hours

/-- A ledger that is ours at the end of a run was ours all along. -/
theorem ours_of_run (h : (lts E T).Run s τ u) (hours : Ours E u.world.ledger.settlement) :
    Ours E s.world.ledger.settlement := by
  induction h with
  | nil => exact hours
  | snoc _ hst ih => exact ih (ours_of_step hst hours)

/-- The payer and the order of a successful settlement. -/
def Tx.settled? (tx : Tx Sig T) : Option (Address × Order) :=
  match tx.call with
  | .settle o => if tx.success then some (tx.msg.sender, o) else none
  | _ => none

/-- The successful settlements of order `id`. -/
def settlements (τ : List (Tr (State T) (Tx Sig T))) (id : Bytes32) : List (Address × Order) :=
  (τ.filterMap fun e => e.lab.settled?).filter fun x => x.2.orderId = id

theorem settlements_snoc {e : Tr (State T) (Tx Sig T)} (id : Bytes32) :
    settlements (τ ++ [e]) id =
      settlements τ id ++ e.lab.settled?.toList.filter fun x => x.2.orderId = id := by
  unfold settlements
  rw [List.filterMap_append, List.filter_append]
  cases he : e.lab.settled? <;> simp [he]

theorem settled?_of_settle {o : Order} (hc : tx.call = .settle o) (hs : tx.success = true) :
    tx.settled? = some (tx.msg.sender, o) := by
  simp [Tx.settled?, hc, hs]

theorem settled?_eq_none (h : tx.success = false ∨ ∀ o, tx.call ≠ .settle o) :
    tx.settled? = none := by
  unfold Tx.settled?
  split
  · rename_i o ho
    rcases h with h | h
    · simp [h]
    · exact absurd ho (h o)
  · rfl

/-- An order of the ledger is the record of the one settlement that paid it. -/
theorem settlements_eq (h : (lts E T).Run (init E t₀) τ s)
    (hours : Ours E s.world.ledger.settlement) (id : Bytes32) :
    ((s.world.ledger.orders id).seller = 0 ∧ settlements τ id = []) ∨
      ((s.world.ledger.orders id).seller ≠ 0 ∧ ∃ x, settlements τ id = [x] ∧
        (s.world.ledger.orders id).terms = (x.1, x.2.seller, x.2.serviceHash, x.2.inputHash)) := by
  induction h with
  | nil => exact Or.inl ⟨rfl, rfl⟩
  | @snoc t v τ tx h hst ih =>
    have ih := ih (ours_of_step hst hours)
    rw [settlements_snoc]
    rcases ledger_step hst with ⟨c, hcall, -, hc⟩ | ⟨o, hcall, hs, hset⟩ | ⟨he, hnone⟩
    · rw [settled?_eq_none (Or.inr fun o ho => by rw [hcall] at ho; cases ho)]
      rcases ObolosEconomicLedger.terms_change hc id with ht | ⟨-, p, hp, -⟩
      · have hseller : (v.world.ledger.orders id).seller = (t.world.ledger.orders id).seller :=
          congrArg (fun x => x.2.1) ht
        rw [ht, hseller]
        simpa using ih
      · exact absurd hp (not_recordPaid hc (step_external hst) (ours_of_step hst hours) p)
    · rw [settled?_of_settle hcall hs, orders_of_settled hset]
      by_cases hid : id = o.orderId
      · subst hid
        -- The ledger did not know the order, so no earlier settlement paid it.
        have hfresh := (ObolosEconomicLedger.recordPaid_ok.1 hset.recorded).2.1
        rcases ih with ⟨-, hnil⟩ | ⟨hne, -⟩
        · refine Or.inr ⟨by simpa using seller_ne_of_settled hset, (tx.msg.sender, o), ?_, ?_⟩
          · simp [hnil]
          · simp [ObolosEconomicLedger.Paid.terms]
        · exact absurd hfresh hne
      · simpa [hid, Ne.symm hid] using ih
    · rw [settled?_eq_none hnone, he]
      simpa using ih

/-! ### The life of one order -/

/-- Terms, once fixed, stay; an output, once written, stays; an acknowledgement stays. -/
def Settles (p q : ObolosEconomicLedger.Paid) : Prop :=
  (p.seller ≠ 0 → q.terms = p.terms) ∧ (p.outputHash ≠ 0 → q.outputHash = p.outputHash) ∧
    (p.acknowledged = true → q.acknowledged = true)

theorem Settles.refl (p : ObolosEconomicLedger.Paid) : Settles p p :=
  ⟨fun _ => rfl, fun _ => rfl, id⟩

theorem Settles.trans {p q r : ObolosEconomicLedger.Paid} (h : Settles p q) (h' : Settles q r) :
    Settles p r := by
  refine ⟨fun hp => ?_, fun hp => ?_, fun hp => h'.2.2 (h.2.2 hp)⟩
  · have hq : q.seller = p.seller := congrArg (fun x => x.2.1) (h.1 hp)
    exact (h'.1 (by rwa [hq])).trans (h.1 hp)
  · have hq := h.2.1 hp
    exact (h'.2.1 (by rwa [hq])).trans hq

/-- What one transaction does to one order of a ledger that is ours. -/
theorem settles_step (hJ : Joint E s.world) (h : (lts E T).step s tx u)
    (hours : Ours E u.world.ledger.settlement) (id : Bytes32) :
    Settles (s.world.ledger.orders id) (u.world.ledger.orders id) := by
  have hok := hJ.ledgerOk (ours_of_step h hours)
  have key : ∀ {m : Msg} {c : ObolosEconomicLedger.Call} {l l' : ObolosEconomicLedger.State},
      LedgerOk l → ObolosEconomicLedger.Change E.keccak E.ledger m l c l' →
        Settles (l.orders id) (l'.orders id) := by
    intro m c l l' hok hc
    refine ⟨fun hp => ?_, fun hp => ?_, fun hp => ?_⟩
    · rcases ObolosEconomicLedger.terms_change hc id with ht | ⟨h₀, -⟩
      · exact ht
      · exact absurd h₀ hp
    · rcases ObolosEconomicLedger.output_change hok hc id with ht | ⟨h₀, -⟩
      · exact ht
      · exact absurd h₀ hp
    · rcases ObolosEconomicLedger.acknowledged_change hok hc id with ht | ⟨h₀, -⟩
      · rwa [ht]
      · rw [h₀] at hp; cases hp
  rcases ledger_step h with ⟨c, -, -, hc⟩ | ⟨o, -, -, hset⟩ | ⟨he, -⟩
  · exact key hok hc
  · exact key hok (recordPaid_of_settled hset)
  · rw [he]; exact Settles.refl _

theorem settles_run (hK : ∀ ws, E.keccak.words ws ≠ 0) (h : (lts E T).Run (init E t₀) τ s)
    (h' : (lts E T).Run s σ u) (hours : Ours E u.world.ledger.settlement) (id : Bytes32) :
    Settles (s.world.ledger.orders id) (u.world.ledger.orders id) := by
  induction h' with
  | nil => exact Settles.refl _
  | @snoc t v σ tx h' hst ih =>
    exact (ih (ours_of_step hst hours)).trans
      (settles_step (joint_run hK (h.append h')) hst hours id)

/-- A transaction that changes the output of an order of a ledger that is ours. -/
theorem output_step (hJ : Joint E s.world) (h : (lts E T).step s tx u)
    (hours : Ours E u.world.ledger.settlement) {id : Bytes32}
    (hne : (s.world.ledger.orders id).outputHash ≠ (u.world.ledger.orders id).outputHash) :
    (s.world.ledger.orders id).outputHash = 0 ∧ (u.world.ledger.orders id).outputHash ≠ 0 ∧
      tx.msg.sender = (s.world.ledger.orders id).seller ∧
      tx.call = .ledger (.attestDelivery id (u.world.ledger.orders id).outputHash) := by
  have hok := hJ.ledgerOk (ours_of_step h hours)
  rcases ledger_step h with ⟨c, hcall, -, hc⟩ | ⟨o, -, -, hset⟩ | ⟨he, -⟩
  · rcases ObolosEconomicLedger.output_change hok hc id with ht | ⟨h₁, h₂, h₃, h₄⟩
    · exact absurd ht.symm hne
    · exact ⟨h₁, h₂, h₃, by rw [hcall, h₄]⟩
  · rcases ObolosEconomicLedger.output_change hok (recordPaid_of_settled hset) id with
      ht | ⟨-, -, -, h₄⟩
    · exact absurd ht.symm hne
    · cases h₄
  · rw [he] at hne; exact absurd rfl hne

/-- A transaction that acknowledges an order of a ledger that is ours. -/
theorem acknowledged_step (hJ : Joint E s.world) (h : (lts E T).step s tx u)
    (hours : Ours E u.world.ledger.settlement) {id : Bytes32}
    (hne : (s.world.ledger.orders id).acknowledged ≠ (u.world.ledger.orders id).acknowledged) :
    (u.world.ledger.orders id).acknowledged = true ∧
      tx.msg.sender = (s.world.ledger.orders id).payer ∧
      (s.world.ledger.orders id).outputHash ≠ 0 ∧
      tx.call = .ledger (.acknowledgeDelivery id (s.world.ledger.orders id).outputHash) := by
  have hok := hJ.ledgerOk (ours_of_step h hours)
  rcases ledger_step h with ⟨c, hcall, -, hc⟩ | ⟨o, -, -, hset⟩ | ⟨he, -⟩
  · rcases ObolosEconomicLedger.acknowledged_change hok hc id with ht | ⟨-, h₂, h₃, h₄, -, h₆⟩
    · exact absurd ht.symm hne
    · exact ⟨h₂, h₃, h₄, by rw [hcall, h₆]⟩
  · rcases ObolosEconomicLedger.acknowledged_change hok (recordPaid_of_settled hset) id with
      ht | ⟨-, -, -, -, -, h₆⟩
    · exact absurd ht.symm hne
    · cases h₆
  · rw [he] at hne; exact absurd rfl hne

/-- **One order, three copies.**  After every run of the market that leaves the policy and the
ledger wired to the settlement contract, with a hash that is never zero:

* an order id is consumed in the policy iff it has an order hash iff the ledger has the order;
* the terms of an order in the ledger are those of the one settlement that paid it;
* whatever the ledger said of an order at any time of the run, its terms, its output and its
  acknowledgement are the same now;
* an output is written only once, by the seller; an order is acknowledged only by its payer,
  for the attested output;
* the counters of every seller are the numbers of its paid, delivered and acknowledged orders. -/
theorem orders_agree (hK : ∀ ws, E.keccak.words ws ≠ 0) (h : (lts E T).Run (init E t₀) τ s)
    (hpolicy : s.world.policy.settlement = E.settlement.self)
    (hledger : s.world.ledger.settlement = E.settlement.self) :
    (∀ id, (s.world.policy.consumed id = true ↔ s.world.settlement.orderHashes id ≠ 0) ∧
      (s.world.settlement.orderHashes id ≠ 0 ↔ (s.world.ledger.orders id).seller ≠ 0)) ∧
    (∀ id, (s.world.ledger.orders id).seller ≠ 0 → ∃ payer o,
      settlements τ id = [(payer, o)] ∧ (s.world.ledger.orders id).payer = payer ∧
      (s.world.ledger.orders id).seller = o.seller ∧
      (s.world.ledger.orders id).serviceHash = o.serviceHash ∧
      (s.world.ledger.orders id).inputHash = o.inputHash) ∧
    (∀ u ∈ LTS.states (init E t₀) τ, ∀ id,
      Settles (u.world.ledger.orders id) (s.world.ledger.orders id)) ∧
    (∀ e ∈ τ, ∀ id,
      (e.pre.world.ledger.orders id).outputHash ≠ (e.post.world.ledger.orders id).outputHash →
        (e.pre.world.ledger.orders id).outputHash = 0 ∧
        (e.post.world.ledger.orders id).outputHash ≠ 0 ∧
        e.lab.msg.sender = (e.pre.world.ledger.orders id).seller) ∧
    (∀ e ∈ τ, ∀ id, (e.pre.world.ledger.orders id).acknowledged ≠
        (e.post.world.ledger.orders id).acknowledged →
      (e.post.world.ledger.orders id).acknowledged = true ∧
      e.lab.msg.sender = (e.pre.world.ledger.orders id).payer ∧
      (e.pre.world.ledger.orders id).outputHash ≠ 0 ∧
      e.lab.call =
        .ledger (.acknowledgeDelivery id (e.pre.world.ledger.orders id).outputHash)) ∧
    ∀ a, (s.world.ledger.reputation a).paid =
        {id | PaidTo a (s.world.ledger.orders id)}.ncard ∧
      (s.world.ledger.reputation a).delivered =
        {id | DeliveredBy a (s.world.ledger.orders id)}.ncard ∧
      (s.world.ledger.reputation a).acknowledged =
        {id | AcknowledgedOf a (s.world.ledger.orders id)}.ncard ∧
      (s.world.ledger.reputation a).acknowledged ≤ (s.world.ledger.reputation a).delivered ∧
      (s.world.ledger.reputation a).delivered ≤ (s.world.ledger.reputation a).paid := by
  have hJ := joint_run hK h
  have hours : Ours E s.world.ledger.settlement := Or.inr hledger
  have hok := hJ.ledgerOk hours
  -- The ledger is wired once, so that it was wired to this settlement in every earlier step.
  have hmid : ∀ e ∈ τ, Joint E e.pre.world ∧ (lts E T).step e.pre e.lab e.post ∧
      Ours E e.post.world.ledger.settlement := fun e he => by
    obtain ⟨τ₁, τ₂, rfl⟩ := List.append_of_mem he
    obtain ⟨h₁, hst, h₂⟩ := h.split_at
    exact ⟨joint_run hK h₁, hst, ours_of_run h₂ hours⟩
  refine ⟨fun id => ⟨hJ.policy (Or.inr hpolicy) id, hJ.ledger hours id⟩, fun id hid => ?_,
    fun u hu id => ?_, fun e he id hne => ?_, fun e he id hne => ?_, fun a => ?_⟩
  · rcases settlements_eq h hours id with ⟨h₀, -⟩ | ⟨-, ⟨payer, o⟩, hset, hterms⟩
    · exact absurd h₀ hid
    · simp only [ObolosEconomicLedger.Paid.terms, Prod.mk.injEq] at hterms
      exact ⟨payer, o, hset, hterms⟩
  · obtain ⟨τ₁, τ₂, -, h₁, h₂⟩ := h.cut hu
    exact settles_run hK h₁ h₂ hours id
  · obtain ⟨hJ', hst, hours'⟩ := hmid e he
    obtain ⟨h₁, h₂, h₃, -⟩ := output_step hJ' hst hours' hne
    exact ⟨h₁, h₂, h₃⟩
  · obtain ⟨hJ', hst, hours'⟩ := hmid e he
    exact acknowledged_step hJ' hst hours' hne
  · exact ⟨hok.paid a, hok.delivered a, hok.acknowledged a, hok.counts_le a⟩

namespace Demo

theorem keccak_ne (ws : List ℕ) : deployment.keccak.words ws ≠ 0 := by
  -- The toy hash is odd.
  intro h
  have hnat := congrArg BitVec.toNat h
  simp only [deployment, ObolosPolicyEnvelope.Demo.keccak, BitVec.toNat_ofNat,
    BitVec.ofNat_eq_ofNat] at hnat
  omega

/-- The state after the setup and the trade. -/
def traded : State ObolosMarketSettlement.erc20 := (run start (setup ++ trade)).2

theorem traded_run :
    (lts deployment _).Run start (run start (setup ++ trade)).1 traded :=
  play_run start (setup ++ trade) (by decide +kernel)

end Demo

/-- The one order of the trade is paid, delivered and acknowledged. -/
theorem orders_agree_trade :
    Demo.traded.world.settlement.orderHashes 11 ≠ 0 ∧
    {id | AcknowledgedOf 6 (Demo.traded.world.ledger.orders id)}.ncard = 1 := by
  have h := orders_agree Demo.keccak_ne Demo.traded_run (by decide +kernel) (by decide +kernel)
  refine ⟨(h.1 11).1.1 (by decide +kernel), ?_⟩
  have hcount : (Demo.traded.world.ledger.reputation 6).acknowledged = 1 := by decide +kernel
  exact (h.2.2.2.2.2 6).2.2.1.symm.trans hcount

end Market

end Obolos
