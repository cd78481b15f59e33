import Obolos.Contracts.PolicySteps
import Obolos.Contracts.EconomicLedger

/-!
# `ObolosMarketSettlement`

Sellers register services; a payer settles an order for one of them.  `settle` calls into the
policy, the token and the ledger, so it is a function on the joint storage `World` of the three
contracts and the token.  An error anywhere reverts the whole transaction.

The token is a parameter: what is needed of it is stated by the results that need it.  The
`nonReentrant` guard has no counterpart because no call here re-enters.
-/

namespace Obolos

namespace ObolosMarketSettlement

/-- A registered service. -/
structure Service where
  seller : Address
  category : ℕ
  unitHash : Bytes32
  quantity : ℕ
  unitPrice : ℕ
  endpointHash : Bytes32
  deriving DecidableEq

/-- An order as the payer submits it. -/
structure Order where
  orderId : Bytes32
  agentId : Bytes32
  category : ℕ
  seller : Address
  serviceHash : Bytes32
  unitHash : Bytes32
  quantity : ℕ
  unitPrice : ℕ
  amount : ℕ
  inputHash : Bytes32
  deadline : ℕ
  policyVersion : ℕ
  agentVersion : ℕ
  feeVersion : ℕ
  deriving DecidableEq

/-- The immutable variables and the addresses of the contracts. -/
structure Params where
  /-- `block.chainid` -/
  chainid : ℕ
  /-- `address(this)` -/
  self : Address
  policy : Address
  ledger : Address
  reserve : Address
  reviewPool : Address
  self_ne : self ≠ 0
  reserve_ne : reserve ≠ 0
  reviewPool_ne : reviewPool ≠ 0

/-- The storage of the settlement contract. -/
structure State where
  services : Bytes32 → Service
  orderHashes : Bytes32 → Bytes32

/-- The storage after the constructor. -/
def init : State where
  services := fun _ => ⟨0, 0, 0, 0, 0, 0⟩
  orderHashes := fun _ => 0

/-- An ERC20 token as the settlement contract uses it. -/
structure Token where
  /-- The storage of the token. -/
  Storage : Type
  /-- `balanceOf` -/
  balanceOf : Storage → Address → ℕ
  /-- `SafeERC20.safeTransferFrom(sender, recipient, value)` called by `spender`; an error when the token
  reverts or returns `false`. -/
  transferFrom : (spender sender recipient : Address) → ℕ → Storage → Except Revert Storage

/-- The storage of the whole market. -/
structure World (T : Token) where
  policy : ObolosPolicyEnvelope.State
  ledger : ObolosEconomicLedger.State
  settlement : State
  token : T.Storage

variable (K : Keccak) (D : Params) {T : Token}

/-- The hash a service is registered under. -/
def serviceHash (seller : Address) (category : ℕ) (unitHash : Bytes32)
    (quantity unitPrice : ℕ) (endpointHash : Bytes32) : Bytes32 :=
  K.words [D.chainid, D.self.toNat, seller.toNat, category, unitHash.toNat, quantity, unitPrice,
    endpointHash.toNat]

/-- `registerService` -/
def registerService (m : Msg) (category : ℕ) (unitHash : Bytes32) (quantity unitPrice : ℕ)
    (endpointHash : Bytes32) (s : State) : Except Revert State := do
  revertIf (category > 4 ∨ unitHash = 0 ∨ quantity = 0 ∨ unitPrice = 0 ∨ endpointHash = 0)
    .Invalid
  let h := serviceHash K D m.sender category unitHash quantity unitPrice endpointHash
  revertIf ((s.services h).seller ≠ 0) .Invalid
  return { s with
    services := Function.update s.services h
      ⟨m.sender, category, unitHash, quantity, unitPrice, endpointHash⟩ }

/-- The hash that marks an order as settled. -/
def orderHash (payer : Address) (o : Order) : Bytes32 :=
  K.words [D.chainid, D.self.toNat, payer.toNat, o.orderId.toNat, o.agentId.toNat, o.category,
    o.seller.toNat, o.serviceHash.toNat, o.unitHash.toNat, o.quantity, o.unitPrice, o.amount,
    o.inputHash.toNat, o.deadline, o.policyVersion, o.agentVersion, o.feeVersion]

/-- The debit `settle` asks the policy for. -/
def Order.spend (payer : Address) (o : Order) : ObolosPolicyEnvelope.Spend where
  orderId := o.orderId
  agentId := o.agentId
  executor := payer
  category := o.category
  seller := o.seller
  amount := o.amount
  version := o.policyVersion
  agentVersion := o.agentVersion

/-- The payment `settle` records in the ledger. -/
def Order.payment (payer : Address) (o : Order) : ObolosEconomicLedger.Payment where
  orderId := o.orderId
  agentId := o.agentId
  payer := payer
  seller := o.seller
  serviceHash := o.serviceHash
  category := o.category
  unitHash := o.unitHash
  quantity := o.quantity
  unitPrice := o.unitPrice
  amount := o.amount
  inputHash := o.inputHash

/-- The message of an internal call: the settlement contract is the sender. -/
def internal (m : Msg) : Msg := { m with sender := D.self, sender_ne := D.self_ne }

/-- The checks of `settle` against the registered service. -/
def serviceMismatch (s : Service) (o : Order) : Prop :=
  o.orderId = 0 ∨ s.seller = 0 ∨ o.seller ≠ s.seller ∨ o.category ≠ s.category ∨
    o.unitHash ≠ s.unitHash ∨ o.quantity ≠ s.quantity ∨ o.unitPrice ≠ s.unitPrice

instance decidableServiceMismatch (s : Service) (o : Order) : Decidable (serviceMismatch s o) :=
  inferInstanceAs (Decidable (_ ∨ _))

/-- `uint256 r = o.amount * bps / 10000;` -/
def feePart (amount bps : ℕ) : Except Revert ℕ := do
  let p ← mulU 256 amount bps
  return p / 10000

/-- `if(value != 0) token.safeTransferFrom(msg.sender, recipient, value);` -/
def transferNonzero (payer recipient : Address) (value : ℕ) (t : T.Storage) :
    Except Revert T.Storage :=
  if value ≠ 0 then T.transferFrom D.self payer recipient value t else .ok t

/-- `settle` -/
def settle (m : Msg) (o : Order) (w : World T) : Except Revert (World T) := do
  revertIf (o.deadline < m.timestamp ∨ o.feeVersion ≠ w.policy.feeVersion ∨
    w.settlement.orderHashes o.orderId ≠ 0) .Stale
  let s := w.settlement.services o.serviceHash
  revertIf (serviceMismatch s o) .Invalid
  let product ← mulU 256 o.quantity o.unitPrice
  revertIf (o.amount ≠ product) .Invalid
  revertIf (w.policy.settlement ≠ D.self ∨ w.ledger.settlement ≠ D.self) .Invalid
  let h := orderHash K D m.sender o
  let policy ← ObolosPolicyEnvelope.consume (internal D m) (o.spend m.sender) w.policy
  let settlement :=
    { w.settlement with orderHashes := Function.update w.settlement.orderHashes o.orderId h }
  let r ← feePart o.amount policy.reserveBps
  let v ← feePart o.amount policy.reviewBps
  let rest ← subU o.amount r
  let sellerAmount ← subU rest v  -- All rounding dust belongs to the seller.
  let token ← T.transferFrom D.self m.sender o.seller sellerAmount w.token
  let token ← transferNonzero D m.sender D.reserve r token
  let token ← transferNonzero D m.sender D.reviewPool v token
  let ledger ← ObolosEconomicLedger.recordPaid (internal D m) (o.payment m.sender) w.ledger
  return ⟨policy, ledger, settlement, token⟩

/-! ### What the calls do -/

variable {K D} {m : Msg} {s s' : State} {w w' : World T}

theorem registerService_ok {category : ℕ} {unitHash : Bytes32} {quantity unitPrice : ℕ}
    {endpointHash : Bytes32} :
    registerService K D m category unitHash quantity unitPrice endpointHash s = .ok s' ↔
      (category ≤ 4 ∧ unitHash ≠ 0 ∧ quantity ≠ 0 ∧ unitPrice ≠ 0 ∧ endpointHash ≠ 0) ∧
      (s.services (serviceHash K D m.sender category unitHash quantity unitPrice
        endpointHash)).seller = 0 ∧
      s' = { s with
        services := Function.update s.services
          (serviceHash K D m.sender category unitHash quantity unitPrice endpointHash)
          ⟨m.sender, category, unitHash, quantity, unitPrice, endpointHash⟩ } := by
  simp [registerService, and_assoc, @eq_comm _ _ s']

/-- What a successful `settle` checked, and the parts the amount was split into. -/
structure Settled (K : Keccak) (D : Params) (m : Msg) (o : Order) (w w' : World T) : Prop where
  deadline : m.timestamp ≤ o.deadline
  feeVersion : o.feeVersion = w.policy.feeVersion
  fresh : w.settlement.orderHashes o.orderId = 0
  service : ¬ serviceMismatch (w.settlement.services o.serviceHash) o
  word : o.quantity * o.unitPrice < 2 ^ 256
  amount : o.amount = o.quantity * o.unitPrice
  policyWired : w.policy.settlement = D.self
  ledgerWired : w.ledger.settlement = D.self
  consumed : ObolosPolicyEnvelope.consume (internal D m) (o.spend m.sender) w.policy =
    .ok w'.policy
  marked : w'.settlement = { w.settlement with
    orderHashes := Function.update w.settlement.orderHashes o.orderId (orderHash K D m.sender o) }
  covered : o.amount * w'.policy.reserveBps / 10000 + o.amount * w'.policy.reviewBps / 10000 ≤
    o.amount
  paid : ∃ t₁ t₂,
    T.transferFrom D.self m.sender o.seller
      (o.amount - o.amount * w'.policy.reserveBps / 10000 -
        o.amount * w'.policy.reviewBps / 10000) w.token = .ok t₁ ∧
    transferNonzero D m.sender D.reserve (o.amount * w'.policy.reserveBps / 10000) t₁ = .ok t₂ ∧
    transferNonzero D m.sender D.reviewPool (o.amount * w'.policy.reviewBps / 10000) t₂ =
      .ok w'.token
  recorded : ObolosEconomicLedger.recordPaid (internal D m) (o.payment m.sender) w.ledger =
    .ok w'.ledger

theorem feePart_ok {amount bps r : ℕ} :
    feePart amount bps = .ok r ↔ amount * bps < 2 ^ 256 ∧ amount * bps / 10000 = r := by
  simp [feePart]

theorem settled_of_settle {o : Order} (h : settle K D m o w = .ok w') : Settled K D m o w w' := by
  simp only [settle, bind_eq_ok, revertIf_eq_ok, mulU_eq_ok, subU_eq_ok, feePart_ok,
    pure_eq_ok] at h
  obtain ⟨-, h₁, -, h₂, _, ⟨hword, rfl⟩, -, h₃, -, h₄, p, hp, _, ⟨-, rfl⟩, _, ⟨-, rfl⟩, _,
    ⟨hr, rfl⟩, _, ⟨hv, rfl⟩, t₁, ht₁, t₂, ht₂, t₃, ht₃, l, hl, rfl⟩ := h
  simp only [not_or, not_not, not_lt] at h₁ h₃ h₄
  exact ⟨h₁.1, h₁.2.1, h₁.2.2, h₂, hword, h₃, h₄.1, h₄.2, hp, rfl, by simp only; omega,
    ⟨t₁, t₂, ht₁, ht₂, ht₃⟩, hl⟩

end ObolosMarketSettlement

end Obolos
