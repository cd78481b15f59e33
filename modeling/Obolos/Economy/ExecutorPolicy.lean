import Obolos.Contracts.MarketOrders
import Obolos.Economy.PaidRequest

/-!
# The buyer's policy check and the chain

`assertExecutorPolicy` of `executor-live.ts` decides over a snapshot of the two contracts whether
an order may be paid.  The contracts decide the same in `settle` and `policy.consume`.

`assertExecutorPolicy_accepts` : in every reachable state the local check accepts what `consume`
accepts, and what it accepts passes `consume` and the guards of `settle` as soon as the versions
are current, the deadline has not passed, the windows and delays allow it, and the policy and the
ledger are wired to the settlement contract.  The snapshot does not show the wiring:
`unwired_rejects` is a reachable state in which nothing else is missing.
-/

namespace Obolos

namespace ObolosMarketSettlement

variable (K : Keccak) (D : Params) {T : Token}

/-- `settle` up to the debit: its own guards and `policy.consume`. -/
def authorize (m : Msg) (o : Order) (w : World T) :
    Except Revert ObolosPolicyEnvelope.State := do
  revertIf (o.deadline < m.timestamp ∨ o.feeVersion ≠ w.policy.feeVersion ∨
    w.settlement.orderHashes o.orderId ≠ 0) .Stale
  revertIf (serviceMismatch (w.settlement.services o.serviceHash) o) .Invalid
  let product ← mulU 256 o.quantity o.unitPrice
  revertIf (o.amount ≠ product) .Invalid
  revertIf (w.policy.settlement ≠ D.self ∨ w.ledger.settlement ≠ D.self) .Invalid
  ObolosPolicyEnvelope.consume (internal D m) (o.spend m.sender) w.policy

/-- `settle` after the debit: the marker, the transfers and the record in the ledger. -/
def transfer (m : Msg) (o : Order) (w : World T) (policy : ObolosPolicyEnvelope.State) :
    Except Revert (World T) := do
  let settlement :=
    { w.settlement with
      orderHashes := Function.update w.settlement.orderHashes o.orderId (orderHash K D m.sender o) }
  let r ← feePart o.amount policy.reserveBps
  let v ← feePart o.amount policy.reviewBps
  let rest ← subU o.amount r
  let sellerAmount ← subU rest v
  let token ← T.transferFrom D.self m.sender o.seller sellerAmount w.token
  let token ← transferNonzero D m.sender D.reserve r token
  let token ← transferNonzero D m.sender D.reviewPool v token
  let ledger ← ObolosEconomicLedger.recordPaid (internal D m) (o.payment m.sender) w.ledger
  return ⟨policy, ledger, settlement, token⟩

variable {K D} {m : Msg} {o : Order} {w : World T} {p : ObolosPolicyEnvelope.State}

/-- `settle` is its guards and the debit, and then the transfers. -/
theorem settle_eq : settle K D m o w = authorize D m o w >>= transfer K D m o w := by
  simp only [settle, authorize, bind_assoc]
  rfl

/-- What the guards of `settle` and the debit ask for. -/
theorem authorize_ok : authorize D m o w = .ok p ↔
    (m.timestamp ≤ o.deadline ∧ o.feeVersion = w.policy.feeVersion ∧
      w.settlement.orderHashes o.orderId = 0) ∧
    ¬ serviceMismatch (w.settlement.services o.serviceHash) o ∧
    (o.quantity * o.unitPrice < 2 ^ 256 ∧ o.amount = o.quantity * o.unitPrice) ∧
    (w.policy.settlement = D.self ∧ w.ledger.settlement = D.self) ∧
    ObolosPolicyEnvelope.consume (internal D m) (o.spend m.sender) w.policy = .ok p := by
  simp only [authorize, bind_eq_ok, revertIf_eq_ok, mulU_eq_ok, not_or, not_not, not_lt]
  constructor
  · rintro ⟨-, h₁, -, h₂, _, ⟨hword, rfl⟩, -, h₃, -, h₄, hp⟩
    exact ⟨h₁, h₂, ⟨hword, h₃⟩, h₄, hp⟩
  · rintro ⟨h₁, h₂, ⟨hword, h₃⟩, h₄, hp⟩
    exact ⟨(), h₁, (), h₂, _, ⟨hword, rfl⟩, (), h₃, (), h₄, hp⟩

end ObolosMarketSettlement

/-! ### Words -/

namespace ObolosPolicyEnvelope

variable {Sig : Type} {K : Keccak} {Z : OpenZeppelin Sig} {P : Params} {m : Msg} {s s' : State}

/-- The amounts among the arguments are words: the ABI decoder refuses other call data. -/
def Call.Words : Call Sig → Prop
  | .setCategory _ value _ _ _ => value.perOrderCap < 2 ^ 256 ∧ value.windowCap < 2 ^ 256
  | .registerAgent _ _ totalCap windowCap _ => totalCap < 2 ^ 256 ∧ windowCap < 2 ^ 256
  | .setAgent _ _ _ totalCap windowCap _ => totalCap < 2 ^ 256 ∧ windowCap < 2 ^ 256
  | _ => True

instance decidableWords (c : Call Sig) : Decidable c.Words := by
  cases c <;> unfold Call.Words <;> infer_instance

/-- The caps are words. -/
structure Sized (s : State) : Prop where
  perOrderCap : ∀ id, (s.categories id).perOrderCap < 2 ^ 256
  totalCap : ∀ id, (s.agents id).totalCap < 2 ^ 256

theorem sized_init : Sized init where
  perOrderCap _ := by simp [init]
  totalCap _ := by simp [init]

/-- Every call with proper arguments keeps the caps words. -/
theorem sized_change {c : Call Sig} (hc : Change K Z P m s c s') (hw : c.Words) (h : Sized s) :
    Sized s' := by
  obtain ⟨hper, htotal⟩ := h
  cases hc with
  | @setCategory id value =>
    refine ⟨fun i => ?_, htotal⟩
    by_cases hi : i = id
    · subst hi
      simpa using hw.1
    · simpa [hi] using hper i
  | @registerAgent id =>
    refine ⟨hper, fun i => ?_⟩
    by_cases hi : i = id
    · subst hi
      simpa using hw.1
    · simpa [hi] using htotal i
  | @setAgent id =>
    refine ⟨hper, fun i => ?_⟩
    by_cases hi : i = id
    · subst hi
      simpa using hw.1
    · simpa [hi] using htotal i
  | @consume x =>
    refine ⟨hper, fun i => ?_⟩
    by_cases hi : i = x.agentId
    · subst hi
      simpa [spend] using htotal x.agentId
    · simpa [spend, hi] using htotal i
  | wireSettlement => exact ⟨hper, htotal⟩
  | setFees => exact ⟨hper, htotal⟩
  | resume => exact ⟨hper, htotal⟩
  | emergencyPause => exact ⟨hper, htotal⟩
  | bindExecutor => exact ⟨hper, htotal⟩
  | setCounterparty => exact ⟨hper, htotal⟩

/-- An amount that a window allows is within its cap. -/
theorem amount_le_of_consumeWindow {now amount cap seconds delay : ℕ} {v v' : Window}
    (h : consumeWindow now v amount cap seconds delay = .ok v') : amount ≤ cap := by
  simp only [consumeWindow, bind_eq_ok, addU_eq_ok, revertIf_eq_ok, pure_eq_ok] at h
  obtain ⟨-, -, u, -, _, ⟨-, rfl⟩, -, hcap, -⟩ := h
  omega

end ObolosPolicyEnvelope

/-! ### The snapshot -/

namespace Executor

open ObolosMarketSettlement (Token World authorize)
open Market (State Tx)

/-- `ExecutorPolicySnapshot`: what was read from the contracts, tuples in the order of the
fields. -/
structure ExecutorPolicySnapshot where
  agent : Address × Address × Bool × ℕ × ℕ × ℕ × ℕ
  boundOwner : Address
  allowed : Bool
  category : Bool × ℕ × ℕ × ℕ × ℕ
  enabled : Bool
  service : Address × ℕ × Bytes32 × ℕ × ℕ × Bytes32
  marker : Bytes32

/-- `assertExecutorPolicy(input, snapshot)` -/
def assertExecutorPolicy (H : Host) (input : ExecutorInput) (snapshot : ExecutorPolicySnapshot) :
    Except JsError Unit := do
  let (a₀, a₁, a₂, a₃, a₄, a₅, _) := snapshot.agent
  let (c₀, c₁, c₂, _, _) := snapshot.category
  let (s₀, s₁, s₂, s₃, s₄, s₅) := snapshot.service
  let amount := input.definition.quantity * input.definition.unitPriceAtomic
  let category := input.definition.category.index
  if a₀ ≠ input.owner ∨ a₁ ≠ input.payer ∨ snapshot.boundOwner ≠ input.owner ∨ a₂ = false ∨
      snapshot.allowed = false then
    JsError.raise "Owner, executor, active mandate or seller allowlist rejected."
  if snapshot.enabled = false ∨ c₀ = false ∨ amount > c₁ ∨ a₄ + amount > a₃ ∨ amount > a₅ ∨
      amount > c₂ ∨ amount > input.maxAmountAtomic then
    JsError.raise "Policy spending limits rejected."
  if s₀ ≠ input.definition.seller ∨ s₁ ≠ category ∨ s₂ ≠ H.textHash input.definition.unit ∨
      s₃ ≠ input.definition.quantity ∨ s₄ ≠ input.definition.unitPriceAtomic ∨
      s₅ ≠ H.textHash input.definition.endpoint then
    JsError.raise "Onchain service mismatch."
  if snapshot.marker ≠ 0 then
    JsError.raise "Order already consumed; recover its original payment journal."

variable {T : Token}

/-- The snapshot `preflight` reads: the getters return the fields in the order of their
declaration. -/
def snapshot (H : Host) (input : ExecutorInput) (w : World T) : ExecutorPolicySnapshot :=
  let id := H.textHash input.platformAgentId
  let category := input.definition.category.index
  let a := w.policy.agents id
  let c := w.policy.categories category
  let s := w.settlement.services input.serviceHash
  { agent := (a.owner, a.executor, a.active, a.totalCap, a.spent, a.windowCap, a.windowSeconds)
    boundOwner := w.policy.executorOwners input.payer
    allowed := w.policy.counterparties id category input.definition.seller
    category := (c.enabled, c.perOrderCap, c.windowCap, c.windowSeconds, c.delaySeconds)
    enabled := w.policy.marketEnabled
    service := (s.seller, s.category, s.unitHash, s.quantity, s.unitPrice, s.endpointHash)
    marker := w.settlement.orderHashes input.orderId }

section Agreement

variable {Sig : Type} {H : Host} {E : Market.Deployment Sig} {t₀ : T.Storage} {s : State T}
  {τ : List (Tr (State T) (Tx Sig T))} {state : ExecutorState} {input : ExecutorInput}
  {w : World T} {o : ObolosMarketSettlement.Order}

/-- An input for an agent and a service of the contracts: its owner and payer are the owner and
the executor of the agent, its definition is the registered service, and it stays within its
maximum amount. -/
structure Matches (H : Host) (input : ExecutorInput) (w : World T) : Prop where
  parsed : ∃ x, ExecutorInput.parse H x = .ok input
  owner : (w.policy.agents (H.textHash input.platformAgentId)).owner = input.owner
  payer : (w.policy.agents (H.textHash input.platformAgentId)).executor = input.payer
  service : w.settlement.services input.serviceHash = input.definition.onchain H
  serviceHash : input.serviceHash = input.definition.serviceHash
  maxAmount : input.definition.amount ≤ input.maxAmountAtomic

/-- What the local check asks for of a matching input. -/
theorem assertExecutorPolicy_ok (h : Matches H input w) :
    assertExecutorPolicy H input (snapshot H input w) = .ok () ↔
      w.policy.executorOwners input.payer = input.owner ∧
      (w.policy.agents (H.textHash input.platformAgentId)).active = true ∧
      w.policy.counterparties (H.textHash input.platformAgentId) input.definition.category.index
        input.definition.seller = true ∧
      w.policy.marketEnabled = true ∧
      (w.policy.categories input.definition.category.index).enabled = true ∧
      input.definition.amount ≤ (w.policy.categories input.definition.category.index).perOrderCap ∧
      (w.policy.agents (H.textHash input.platformAgentId)).spent + input.definition.amount ≤
        (w.policy.agents (H.textHash input.platformAgentId)).totalCap ∧
      input.definition.amount ≤
        (w.policy.agents (H.textHash input.platformAgentId)).windowCap ∧
      input.definition.amount ≤ (w.policy.categories input.definition.category.index).windowCap ∧
      w.settlement.orderHashes input.orderId = 0 := by
  have hmax := h.maxAmount
  simp only [ServiceTerms.amount] at hmax ⊢
  simp only [assertExecutorPolicy, snapshot, h.owner, h.payer, h.service,
    ServiceDefinition.onchain, JsError.raise, JsError.throwIf_eq_ok, JsError.throwIf_end,
    not_or, not_not, not_lt, gt_iff_lt, ne_eq, Bool.not_eq_false, not_true_eq_false, or_self,
    not_false_eq_true, true_and]
  constructor
  · rintro ⟨⟨h₁, h₂, h₃⟩, ⟨h₄, h₅, h₆, h₇, h₈, h₉, -⟩, h₀⟩
    exact ⟨h₁, h₂, h₃, h₄, h₅, h₆, h₇, h₈, h₉, h₀⟩
  · rintro ⟨h₁, h₂, h₃, h₄, h₅, h₆, h₇, h₈, h₉, h₀⟩
    exact ⟨⟨h₁, h₂, h₃⟩, ⟨h₄, h₅, h₆, h₇, h₈, h₉, hmax⟩, h₀⟩

/-- The caps are words in every reachable state. -/
theorem sized_run (hrun : (Market.lts E T).Run (Market.init E t₀) τ s)
    (hwords : ∀ e ∈ τ, ∀ c, e.lab.call = .policy c → c.Words) :
    ObolosPolicyEnvelope.Sized s.world.policy := by
  refine hrun.invariant_of_labels (I := fun s => ObolosPolicyEnvelope.Sized s.world.policy)
    (P := fun tx => ∀ c, tx.call = .policy c → c.Words) hwords ObolosPolicyEnvelope.sized_init
    fun s tx s' hw hI hst => ?_
  rcases Market.step_cases hst with ⟨-, hc⟩ | ⟨-, he⟩
  · generalize tx.call = c at hw hc
    generalize s'.world = w' at hc ⊢
    cases hc with
    | policy exec =>
      exact ObolosPolicyEnvelope.sized_change (ObolosPolicyEnvelope.change_of_exec exec)
        (hw _ rfl) hI
    | ledger => exact hI
    | registerService => exact hI
    | settle settled =>
      obtain ⟨hp, wa, wc, ha, hc, hw'⟩ := ObolosPolicyEnvelope.consume_ok.1 settled.consumed
      rw [hw']
      -- The debit is a `consume` of the policy alone.
      exact ObolosPolicyEnvelope.sized_change (K := E.keccak) (Z := E.openZeppelin)
        (P := E.policy) (.consume hp ha hc) trivial hI
    | token => exact hI
  · rwa [he]

/-- A service with a quantity has a seller. -/
theorem seller_run (hrun : (Market.lts E T).Run (Market.init E t₀) τ s) (id : Bytes32) :
    (s.world.settlement.services id).quantity ≠ 0 →
      (s.world.settlement.services id).seller ≠ 0 := by
  refine Market.run_invariant
    (I := fun w => (w.settlement.services id).quantity ≠ 0 →
      (w.settlement.services id).seller ≠ 0) hrun ?_ fun m w c w' _ hI hc => ?_
  · intro h
    exact absurd rfl h
  · cases hc with
    | policy => exact hI
    | ledger => exact hI
    | registerService registered =>
      obtain ⟨-, -, rfl⟩ := ObolosMarketSettlement.registerService_ok.1 registered
      simp only [Function.update_apply]
      split
      · intro _
        exact m.sender_ne
      · exact hI
    | settle settled =>
      rw [settled.marked]
      exact hI
    | token => exact hI

/-- The order of an input, whatever its input hash is. -/
theorem order_fields (ho : state.settlementOrder H = .ok o) :
    o.orderId = state.intent.orderId ∧ o.agentId = H.textHash state.intent.platformAgentId ∧
      o.category = state.intent.definition.category.index ∧
      o.seller = state.intent.definition.seller ∧
      o.serviceHash = state.intent.definition.serviceHash ∧
      o.unitHash = H.textHash state.intent.definition.unit ∧
      o.quantity = state.intent.definition.quantity ∧
      o.unitPrice = state.intent.definition.unitPriceAtomic ∧
      o.amount = state.intent.definition.amount := by
  simp only [ExecutorState.settlementOrder, bind_eq_ok, pure_eq_ok] at ho
  obtain ⟨a, -, rfl⟩ := ho
  exact ⟨rfl, rfl, rfl, rfl, rfl, rfl, rfl, rfl, rfl⟩

/-- The rolling windows and the delays allow the amount of the order at that time. -/
def WindowsAllow (now : ℕ) (o : ObolosMarketSettlement.Order) (p : ObolosPolicyEnvelope.State) :
    Prop :=
  (∃ v, ObolosPolicyEnvelope.consumeWindow now (p.agentWindows o.agentId) o.amount
    (p.agents o.agentId).windowCap (p.agents o.agentId).windowSeconds
    (p.categories o.category).delaySeconds = .ok v) ∧
  ∃ v, ObolosPolicyEnvelope.consumeWindow now (p.categoryWindows o.category) o.amount
    (p.categories o.category).windowCap (p.categories o.category).windowSeconds
    (p.categories o.category).delaySeconds = .ok v

/-- The versions in the order are the current ones. -/
structure Current (o : ObolosMarketSettlement.Order) (p : ObolosPolicyEnvelope.State) : Prop where
  policyVersion : o.policyVersion = p.policyVersion
  agentVersion : o.agentVersion = p.agentVersions o.agentId
  feeVersion : o.feeVersion = p.feeVersion

/-- The local check accepts what the policy would debit. -/
theorem accepts_of_consume (hK : ∀ ws, E.keccak.words ws ≠ 0)
    (hrun : (Market.lts E T).Run (Market.init E t₀) τ s) (h : Matches H state.intent s.world)
    (ho : state.settlementOrder H = .ok o) {m : Msg} (hm : m.sender = state.intent.payer)
    {p : ObolosPolicyEnvelope.State}
    (hp : ObolosPolicyEnvelope.consume (ObolosMarketSettlement.internal E.settlement m)
      (o.spend m.sender) s.world.policy = .ok p) :
    assertExecutorPolicy H state.intent (snapshot H state.intent s.world) = .ok () := by
  obtain ⟨horder, hagent, hcategory, hseller, -, -, -, -, hamount⟩ := order_fields ho
  obtain ⟨permitted, wa, wc, ha, hc, -⟩ := ObolosPolicyEnvelope.consume_ok.1 hp
  obtain ⟨sender, enabled, -, -, fresh, bound, -, active, seller, category, -, perOrder, -,
    total⟩ := permitted
  simp only [ObolosMarketSettlement.Order.spend, horder, hagent, hcategory, hseller, hamount,
    hm] at enabled fresh bound active seller category perOrder total ha hc
  have hmarker : s.world.settlement.orderHashes state.intent.orderId = 0 := by
    by_contra hne
    have hconsumed := ((Market.joint_run hK hrun).policy (Or.inr sender.symm) _).2 hne
    rw [fresh] at hconsumed
    cases hconsumed
  refine (assertExecutorPolicy_ok h).2 ⟨bound.trans h.owner, active, seller, enabled, category,
    perOrder, total, ?_, ?_, hmarker⟩
  · exact ObolosPolicyEnvelope.amount_le_of_consumeWindow ha
  · exact ObolosPolicyEnvelope.amount_le_of_consumeWindow hc

/-- What the local check accepts passes the guards of `settle` and the debit, once nothing of what
the check does not look at stands against it. -/
theorem authorized_of_accepts (hK : ∀ ws, E.keccak.words ws ≠ 0)
    (hrun : (Market.lts E T).Run (Market.init E t₀) τ s)
    (hwords : ∀ e ∈ τ, ∀ c, e.lab.call = .policy c → c.Words)
    (h : Matches H state.intent s.world) (ho : state.settlementOrder H = .ok o) {m : Msg}
    (hm : m.sender = state.intent.payer)
    (haccepts : assertExecutorPolicy H state.intent (snapshot H state.intent s.world) = .ok ())
    (hwired : s.world.policy.settlement = E.settlement.self ∧
      s.world.ledger.settlement = E.settlement.self)
    (hcurrent : Current o s.world.policy) (hdeadline : m.timestamp ≤ o.deadline)
    (hwindows : WindowsAllow m.timestamp o s.world.policy) :
    ∃ p, authorize E.settlement m o s.world = .ok p := by
  obtain ⟨horder, hagent, hcategory, hseller, hservice, hunit, hquantity, hprice, hamount⟩ :=
    order_fields ho
  obtain ⟨bound, active, seller, enabled, category, perOrder, total, -, -, marker⟩ :=
    (assertExecutorPolicy_ok h).1 haccepts
  obtain ⟨⟨wa, ha⟩, wc, hc⟩ := hwindows
  obtain ⟨x, hx⟩ := h.parsed
  obtain ⟨hid, hqpos, hppos⟩ := ExecutorInput.parse_pos hx
  have hsized := sized_run hrun hwords
  have hregistered := h.service
  rw [h.serviceHash, ← hservice] at hregistered
  have hpos : 0 < state.intent.definition.amount := Nat.mul_pos hqpos hppos
  -- A consumed order has its hash in the settlement, where the snapshot found none.
  have hfresh : s.world.policy.consumed state.intent.orderId = false := by
    by_contra hne
    have hconsumed := Bool.not_eq_false _ ▸ hne
    exact ((Market.joint_run hK hrun).policy (Or.inr hwired.1) _).1 hconsumed marker
  have hpermitted : ObolosPolicyEnvelope.Permitted
      (ObolosMarketSettlement.internal E.settlement m) (o.spend m.sender) s.world.policy := by
    -- The conditions of the policy contract in its order; the snapshot has the value of each.
    refine ⟨hwired.1.symm, enabled, hcurrent.policyVersion, hcurrent.agentVersion, ?_, ?_, ?_, ?_,
      ?_, ?_, ?_, ?_, ?_, ?_⟩
    all_goals
      simp only [ObolosMarketSettlement.Order.spend, horder, hagent, hcategory, hseller, hamount,
        hm]
    · exact hfresh
    · exact bound.trans h.owner.symm
    · exact h.payer.symm
    · exact active
    · exact seller
    · exact category
    · omega
    · exact perOrder
    · exact total.trans_lt (hsized.totalCap _)
    · exact total
  refine ⟨_, ObolosMarketSettlement.authorize_ok.2 ⟨⟨hdeadline, hcurrent.feeVersion, ?_⟩, ?_, ?_,
    hwired, ObolosPolicyEnvelope.consume_ok.2 ⟨hpermitted, wa, wc, ha, hc, rfl⟩⟩⟩
  · rwa [horder]
  · have hne := seller_run hrun o.serviceHash
    rw [hregistered] at hne
    simp only [ObolosMarketSettlement.serviceMismatch, hregistered, not_or, not_not]
    exact ⟨by rwa [horder], hne (by simp [ServiceDefinition.onchain]; omega), hseller, hcategory,
      hunit, hquantity, hprice⟩
  · rw [hquantity, hprice, hamount]
    exact ⟨perOrder.trans_lt (hsized.perOrderCap _), rfl⟩

/-- **The local check agrees with the chain.**  In every reachable state of the market, for an
input for the owner and the executor of an agent and for a registered service:

* if `consume` would debit the order, sent by the payer at some time, then the local check
  accepts the snapshot of the state;
* if the local check accepts it, the order passes the guards of `settle` and the debit unless its
  versions are not current, its deadline has passed, a rolling window or a delay stands against
  it, or the policy or the ledger is not wired to the settlement contract. -/
theorem assertExecutorPolicy_accepts (hK : ∀ ws, E.keccak.words ws ≠ 0)
    (hrun : (Market.lts E T).Run (Market.init E t₀) τ s)
    (hwords : ∀ e ∈ τ, ∀ c, e.lab.call = .policy c → c.Words)
    (h : Matches H state.intent s.world) (ho : state.settlementOrder H = .ok o) {m : Msg}
    (hm : m.sender = state.intent.payer) :
    ((∃ p, ObolosPolicyEnvelope.consume (ObolosMarketSettlement.internal E.settlement m)
        (o.spend m.sender) s.world.policy = .ok p) →
      assertExecutorPolicy H state.intent (snapshot H state.intent s.world) = .ok ()) ∧
    (assertExecutorPolicy H state.intent (snapshot H state.intent s.world) = .ok () →
      ((∃ p, authorize E.settlement m o s.world = .ok p) ↔
        Current o s.world.policy ∧ m.timestamp ≤ o.deadline ∧
        WindowsAllow m.timestamp o s.world.policy ∧
        s.world.policy.settlement = E.settlement.self ∧
        s.world.ledger.settlement = E.settlement.self)) := by
  refine ⟨fun ⟨p, hp⟩ => accepts_of_consume hK hrun h ho hm hp, fun haccepts => ⟨?_, ?_⟩⟩
  · rintro ⟨p, hp⟩
    obtain ⟨⟨hdeadline, hfee, -⟩, -, -, hwired, hp⟩ := ObolosMarketSettlement.authorize_ok.1 hp
    obtain ⟨permitted, wa, wc, ha, hc, -⟩ := ObolosPolicyEnvelope.consume_ok.1 hp
    exact ⟨⟨permitted.version, permitted.agentVersion, hfee⟩, hdeadline, ⟨⟨wa, ha⟩, wc, hc⟩,
      hwired⟩
  · rintro ⟨hcurrent, hdeadline, hwindows, hwired⟩
    exact authorized_of_accepts hK hrun hwords h ho hm haccepts hwired hcurrent hdeadline hwindows

end Agreement

/-! ### The small deployment, wired and not -/

namespace Demo

open Obolos.Demo (host deployment service order start commands)
open ObolosPolicyEnvelope.Demo (msg executor_sender)

/-- Wiring, enrollment, the mandate and the service. -/
def wired : List (Msg × Market.Call Bytes32 ObolosMarketSettlement.erc20) :=
  commands.dropLast.map Prod.snd

/-- The same without the wiring of the policy. -/
def unwired : List (Msg × Market.Call Bytes32 ObolosMarketSettlement.erc20) := wired.tail

/-- The transactions and the state after some calls. -/
def after (calls : List (Msg × Market.Call Bytes32 ObolosMarketSettlement.erc20)) :=
  LTS.play (Market.perform deployment) start calls

theorem exists_of_isOk {ε α : Type} {r : Except ε α} (h : r.isOk = true) : ∃ v, r = .ok v := by
  cases r with
  | ok v => exact ⟨v, rfl⟩
  | error e => cases h

/-- The message of the payer, within the deadline. -/
def payer : Msg := msg 4 2 executor_sender

/-- All amounts in the calls are words. -/
def words (calls : List (Msg × Market.Call Bytes32 ObolosMarketSettlement.erc20)) : Bool :=
  (after calls).1.all fun e => match e.lab.call with
    | .policy c => decide c.Words
    | _ => true

theorem words_of_all {calls : List (Msg × Market.Call Bytes32 ObolosMarketSettlement.erc20)}
    (h : words calls = true) : ∀ e ∈ (after calls).1, ∀ c, e.lab.call = .policy c → c.Words := by
  intro e he c hc
  have hall := List.all_eq_true.1 h e he
  rw [hc] at hall
  exact of_decide_eq_true hall

/-- Both lists of calls can be made, and the states after them match the purchase. -/
theorem after_evaluated : ∀ calls ∈ [wired, unwired],
    LTS.Playable (Market.perform deployment) (Market.Admissible deployment) start calls ∧
    ((after calls).2.world.policy.agents (host.textHash (js "x"))).owner = 4 ∧
    ((after calls).2.world.policy.agents (host.textHash (js "x"))).executor = 5 ∧
    (after calls).2.world.settlement.services service.serviceHash = service.onchain host ∧
    service.amount ≤ 60 := by
  decide +kernel

theorem matches_after {calls : List (Msg × Market.Call Bytes32 ObolosMarketSettlement.erc20)}
    (h : calls ∈ [wired, unwired]) :
    Matches host (purchase service).intent (after calls).2.world := by
  obtain ⟨-, howner, hpayer, hservice, hamount⟩ := after_evaluated calls h
  exact ⟨⟨_, parsed service_parsed⟩, howner, hpayer, hservice, rfl, hamount⟩

theorem wired_run : (Market.lts deployment _).Run start (after wired).1 (after wired).2 :=
  Market.play_run start wired (after_evaluated wired (.head _)).1

theorem unwired_run : (Market.lts deployment _).Run start (after unwired).1 (after unwired).2 :=
  Market.play_run start unwired (after_evaluated unwired (.tail _ (.head _))).1

theorem keccak_ne (ws : List ℕ) : deployment.keccak.words ws ≠ 0 := Market.Demo.keccak_ne ws

theorem matches_wired : Matches host (purchase service).intent (after wired).2.world :=
  matches_after (.head _)

theorem matches_unwired : Matches host (purchase service).intent (after unwired).2.world :=
  matches_after (.tail _ (.head _))

end Demo

/-- In the wired market the order is debited, and the local check accepts it. -/
theorem assertExecutorPolicy_accepts_wired :
    assertExecutorPolicy Obolos.Demo.host (Demo.purchase Obolos.Demo.service).intent
        (snapshot Obolos.Demo.host (Demo.purchase Obolos.Demo.service).intent
          (Demo.after Demo.wired).2.world) = .ok () ∧
      ∃ p, authorize Obolos.Demo.deployment.settlement Demo.payer Obolos.Demo.order
        (Demo.after Demo.wired).2.world = .ok p := by
  obtain ⟨haccepts, hauthorized⟩ := assertExecutorPolicy_accepts Demo.keccak_ne Demo.wired_run
    (Demo.words_of_all (by decide +kernel)) Demo.matches_wired Demo.order_service
    (m := Demo.payer) rfl
  have hconsume : ∃ p, ObolosPolicyEnvelope.consume
      (ObolosMarketSettlement.internal Obolos.Demo.deployment.settlement Demo.payer)
      (Obolos.Demo.order.spend Demo.payer.sender) (Demo.after Demo.wired).2.world.policy =
        .ok p := Demo.exists_of_isOk (by decide +kernel)
  refine ⟨haccepts hconsume, (hauthorized (haccepts hconsume)).2 ⟨?_, ?_, ?_, ?_, ?_⟩⟩
  · exact ⟨by decide +kernel, by decide +kernel, by decide +kernel⟩
  · decide +kernel
  · exact ⟨Demo.exists_of_isOk (by decide +kernel), Demo.exists_of_isOk (by decide +kernel)⟩
  · decide +kernel
  · decide +kernel

/-- While the policy is not wired to the settlement contract, the local check accepts an order that
the contracts refuse, with current versions, before its deadline, and with empty windows. -/
theorem unwired_rejects :
    (Market.lts Obolos.Demo.deployment _).Run Obolos.Demo.start (Demo.after Demo.unwired).1
      (Demo.after Demo.unwired).2 ∧
    (∀ e ∈ (Demo.after Demo.unwired).1, ∀ c, e.lab.call = .policy c → c.Words) ∧
    Matches Obolos.Demo.host (Demo.purchase Obolos.Demo.service).intent
      (Demo.after Demo.unwired).2.world ∧
    (Demo.purchase Obolos.Demo.service).settlementOrder Obolos.Demo.host = .ok Obolos.Demo.order ∧
    assertExecutorPolicy Obolos.Demo.host (Demo.purchase Obolos.Demo.service).intent
      (snapshot Obolos.Demo.host (Demo.purchase Obolos.Demo.service).intent
        (Demo.after Demo.unwired).2.world) = .ok () ∧
    Current Obolos.Demo.order (Demo.after Demo.unwired).2.world.policy ∧
    Demo.payer.timestamp ≤ Obolos.Demo.order.deadline ∧
    WindowsAllow Demo.payer.timestamp Obolos.Demo.order (Demo.after Demo.unwired).2.world.policy ∧
    ¬ ∃ p, authorize Obolos.Demo.deployment.settlement Demo.payer Obolos.Demo.order
      (Demo.after Demo.unwired).2.world = .ok p := by
  refine ⟨Demo.unwired_run, Demo.words_of_all (by decide +kernel), Demo.matches_unwired,
    Demo.order_service, Json.ok_of_isOk (by decide +kernel),
    ⟨by decide +kernel, by decide +kernel, by decide +kernel⟩, by decide +kernel,
    ⟨Demo.exists_of_isOk (by decide +kernel), Demo.exists_of_isOk (by decide +kernel)⟩, ?_⟩
  rintro ⟨p, hp⟩
  obtain ⟨-, -, -, hwired, -⟩ := ObolosMarketSettlement.authorize_ok.1 hp
  exact absurd hwired.1 (by decide +kernel)

end Executor

end Obolos
