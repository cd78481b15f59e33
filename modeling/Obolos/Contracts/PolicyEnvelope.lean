import Obolos.Evm.Basic

/-!
# `ObolosPolicyEnvelope`

The contract that decides which debits are allowed.  The platform (`controller`, with a signed
approval of `approver`) sets category limits, fees and executor bindings; the `guardian` can
pause; the owner of an agent grants it caps and sellers; the wired settlement contract consumes
the budget.

Every external function is a function from the state to `Except Revert State`; `exec` dispatches
a `Call`.  The immutable variables are `Params`.
-/

namespace Obolos

namespace ObolosPolicyEnvelope

/-- Limits of one resource category. -/
structure Category where
  enabled : Bool
  perOrderCap : ℕ
  windowCap : ℕ
  windowSeconds : ℕ
  delaySeconds : ℕ
  deriving DecidableEq

/-- One anchored spending window. -/
structure Window where
  start : ℕ
  spent : ℕ
  last : ℕ
  deriving DecidableEq

/-- A buyer's mandate: its owner, the executor it may be spent by, and its caps. -/
structure Agent where
  owner : Address
  executor : Address
  active : Bool
  totalCap : ℕ
  spent : ℕ
  windowCap : ℕ
  windowSeconds : ℕ
  deriving DecidableEq

/-- The immutable variables; the constructor rejects zero addresses. -/
structure Params where
  controller : Address
  approver : Address
  guardian : Address
  controller_ne : controller ≠ 0
  approver_ne : approver ≠ 0
  guardian_ne : guardian ≠ 0

/-- The storage. -/
structure State where
  settlement : Address
  marketEnabled : Bool
  policyVersion : ℕ
  approvalNonce : ℕ
  reserveBps : ℕ
  reviewBps : ℕ
  feeVersion : ℕ
  categories : ℕ → Category
  categoryWindows : ℕ → Window
  agents : Bytes32 → Agent
  executorOwners : Address → Address
  agentVersions : Bytes32 → ℕ
  agentWindows : Bytes32 → Window
  counterparties : Bytes32 → ℕ → Address → Bool
  consumed : Bytes32 → Bool

/-- `MAX_FEE_BPS` -/
def MAX_FEE_BPS : ℕ := 1000

/-- The storage after the constructor. -/
def init : State where
  settlement := 0
  marketEnabled := true
  policyVersion := 1
  approvalNonce := 0
  reserveBps := 300
  reviewBps := 200
  feeVersion := 1
  categories := fun _ => ⟨false, 0, 0, 0, 0⟩
  categoryWindows := fun _ => ⟨0, 0, 0⟩
  agents := fun _ => ⟨0, 0, false, 0, 0, 0, 0⟩
  executorOwners := fun _ => 0
  agentVersions := fun _ => 0
  agentWindows := fun _ => ⟨0, 0, 0⟩
  counterparties := fun _ _ _ => false
  consumed := fun _ => false

/-! ### Signed approvals -/

/-- The changes an approver signs for. -/
inductive Action
  | category (id : ℕ) (value : Category)
  | fees (reserve review : ℕ)
  | resume
  | executorOwner (executor owner : Address)
  deriving DecidableEq

/-- The `abi.encode` whose hash is the `actionHash` of an approval. -/
def Action.encode : Action → List ℕ
  | .category id value => encodeTagged "CATEGORY" [id, boolWord value.enabled, value.perOrderCap,
      value.windowCap, value.windowSeconds, value.delaySeconds]
  | .fees reserve review => encodeTagged "FEES" [reserve, review]
  | .resume => encodeTagged "RESUME" []
  | .executorOwner executor owner => encodeTagged "EXECUTOR_OWNER" [executor.toNat, owner.toNat]

variable {Sig : Type} (K : Keccak) (Z : OpenZeppelin Sig) (P : Params)

/-- `APPROVAL`, the EIP-712 type hash. -/
def APPROVAL : Bytes32 :=
  K.text "PolicyApproval(bytes32 actionHash,bytes32 observationHash,uint256 nonce,uint256 deadline)"

/-- `abi.encode(APPROVAL, action, observation, nonce, deadline)` -/
def approvalWords (action observation : Bytes32) (nonce deadline : ℕ) : List ℕ :=
  [(APPROVAL K).toNat, action.toNat, observation.toNat, nonce, deadline]

/-- `approvalDigest` -/
def approvalDigest (action observation : Bytes32) (nonce deadline : ℕ) : Bytes32 :=
  Z.hashTypedDataV4 (K.words (approvalWords K action observation nonce deadline))

/-- `_approve` -/
def approve (m : Msg) (action observation : Bytes32) (deadline : ℕ) (signature : Sig)
    (s : State) : Except Revert State := do
  revertIf (m.sender ≠ P.controller) .Unauthorized
  revertIf (m.timestamp > deadline) .Stale
  let digest := approvalDigest K Z action observation s.approvalNonce deadline
  revertIf (Z.recover (Z.toEthSignedMessageHash digest) signature ≠ some P.approver) .Unauthorized
  let approvalNonce ← addU 256 s.approvalNonce 1
  let policyVersion ← addU 64 s.policyVersion 1
  return { s with approvalNonce := approvalNonce, policyVersion := policyVersion }

/-! ### Administration -/

/-- `wireSettlement` -/
def wireSettlement (m : Msg) (target : Address) (s : State) : Except Revert State := do
  revertIf (m.sender ≠ P.controller) .Unauthorized
  revertIf (s.settlement ≠ 0 ∨ m.hasCode target = false) .Invalid
  return { s with settlement := target }

/-- `setCategory` -/
def setCategory (m : Msg) (id : ℕ) (value : Category) (observation : Bytes32) (deadline : ℕ)
    (signature : Sig) (s : State) : Except Revert State := do
  revertIf (id > 4 ∨ value.windowSeconds = 0) .Invalid
  let s ← approve K Z P m (K.words (Action.category id value).encode) observation deadline
    signature s
  return { s with categories := Function.update s.categories id value }

/-- `setFees` -/
def setFees (m : Msg) (reserve review : ℕ) (observation : Bytes32) (deadline : ℕ)
    (signature : Sig) (s : State) : Except Revert State := do
  let total ← addU 256 reserve review
  revertIf (total > MAX_FEE_BPS) .Limit
  let s ← approve K Z P m (K.words (Action.fees reserve review).encode) observation deadline
    signature s
  let feeVersion ← addU 64 s.feeVersion 1
  return { s with reserveBps := reserve, reviewBps := review, feeVersion := feeVersion }

/-- `resume` -/
def resume (m : Msg) (observation : Bytes32) (deadline : ℕ) (signature : Sig) (s : State) :
    Except Revert State := do
  let s ← approve K Z P m (K.words Action.resume.encode) observation deadline signature s
  return { s with marketEnabled := true }

/-- `emergencyPause` -/
def emergencyPause (m : Msg) (s : State) : Except Revert State := do
  revertIf (m.sender ≠ P.guardian ∧ m.sender ≠ P.controller) .Unauthorized
  let policyVersion ← addU 64 s.policyVersion 1
  let approvalNonce ← addU 256 s.approvalNonce 1
  return { s with
    marketEnabled := false, policyVersion := policyVersion, approvalNonce := approvalNonce }

/-- `bindExecutor` -/
def bindExecutor (m : Msg) (executor owner : Address) (observation : Bytes32) (deadline : ℕ)
    (signature : Sig) (s : State) : Except Revert State := do
  revertIf (executor = 0 ∨ owner = 0 ∨ s.executorOwners executor ≠ 0) .Invalid
  let s ← approve K Z P m (K.words (Action.executorOwner executor owner).encode) observation
    deadline signature s
  return { s with executorOwners := Function.update s.executorOwners executor owner }

/-! ### Mandates -/

/-- `registerAgent` -/
def registerAgent (m : Msg) (id : Bytes32) (executor : Address)
    (totalCap windowCap windowSeconds : ℕ) (s : State) : Except Revert State := do
  revertIf (s.executorOwners executor ≠ m.sender) .Unauthorized
  revertIf (id = 0 ∨ (s.agents id).owner ≠ 0 ∨ executor = 0 ∨ windowSeconds = 0) .Invalid
  return { s with
    agents := Function.update s.agents id
      ⟨m.sender, executor, true, totalCap, 0, windowCap, windowSeconds⟩
    agentVersions := Function.update s.agentVersions id 1 }

/-- `setAgent` -/
def setAgent (m : Msg) (id : Bytes32) (executor : Address) (active : Bool)
    (totalCap windowCap windowSeconds : ℕ) (s : State) : Except Revert State := do
  let a := s.agents id
  revertIf (m.sender ≠ a.owner) .Unauthorized
  revertIf (s.executorOwners executor ≠ a.owner) .Unauthorized
  revertIf (executor = 0 ∨ windowSeconds = 0 ∨ totalCap < a.spent) .Invalid
  let version ← addU 64 (s.agentVersions id) 1
  return { s with
    agents := Function.update s.agents id { a with
      executor := executor, active := active, totalCap := totalCap, windowCap := windowCap,
      windowSeconds := windowSeconds }
    agentVersions := Function.update s.agentVersions id version }

/-- `setCounterparty` -/
def setCounterparty (m : Msg) (id : Bytes32) (category : ℕ) (seller : Address) (allowed : Bool)
    (s : State) : Except Revert State := do
  revertIf (m.sender ≠ (s.agents id).owner) .Unauthorized
  revertIf (category > 4 ∨ seller = 0) .Invalid
  let version ← addU 64 (s.agentVersions id) 1
  return { s with
    counterparties := Function.update s.counterparties id
      (Function.update (s.counterparties id) category
        (Function.update (s.counterparties id category) seller allowed))
    agentVersions := Function.update s.agentVersions id version }

/-! ### Spending -/

/-- `if(w.last != 0 && block.timestamp < w.last + delay_) revert Limit();` -/
def checkDelay (now : ℕ) (w : Window) (delay : ℕ) : Except Revert Unit :=
  if w.last = 0 then .ok () else do
    let next ← addU 256 w.last delay
    revertIf (now < next) .Limit

/-- `if(w.start == 0 || block.timestamp >= w.start + seconds_) { w.start = block.timestamp;
w.spent = 0; }` -/
def rollWindow (now : ℕ) (w : Window) (seconds : ℕ) : Except Revert Window :=
  if w.start = 0 then .ok { w with start := now, spent := 0 } else do
    let stop ← addU 256 w.start seconds
    return if now ≥ stop then { w with start := now, spent := 0 } else w

/-- `_consumeWindow` -/
def consumeWindow (now : ℕ) (w : Window) (amount cap seconds delay : ℕ) :
    Except Revert Window := do
  checkDelay now w delay
  let w ← rollWindow now w seconds
  let spent ← addU 256 w.spent amount
  revertIf (spent > cap) .Limit
  return { w with spent := spent, last := now }

/-- The arguments of `consume`. -/
structure Spend where
  orderId : Bytes32
  agentId : Bytes32
  executor : Address
  category : ℕ
  seller : Address
  amount : ℕ
  version : ℕ
  agentVersion : ℕ
  deriving DecidableEq

/-- `consume` -/
def consume (m : Msg) (x : Spend) (s : State) : Except Revert State := do
  revertIf (m.sender ≠ s.settlement) .Unauthorized
  revertIf (s.marketEnabled = false) .Paused
  revertIf (x.version ≠ s.policyVersion ∨ x.agentVersion ≠ s.agentVersions x.agentId ∨
    s.consumed x.orderId = true) .Stale
  let a := s.agents x.agentId
  let c := s.categories x.category
  revertIf (s.executorOwners x.executor ≠ a.owner ∨ x.executor ≠ a.executor ∨ a.active = false ∨
    s.counterparties x.agentId x.category x.seller = false) .Unauthorized
  revertIf (c.enabled = false ∨ x.amount = 0 ∨ x.amount > c.perOrderCap) .Limit
  let spent ← addU 256 a.spent x.amount
  revertIf (spent > a.totalCap) .Limit
  let agentWindow ← consumeWindow m.timestamp (s.agentWindows x.agentId) x.amount a.windowCap
    a.windowSeconds c.delaySeconds
  let categoryWindow ← consumeWindow m.timestamp (s.categoryWindows x.category) x.amount
    c.windowCap c.windowSeconds c.delaySeconds
  return { s with
    agentWindows := Function.update s.agentWindows x.agentId agentWindow
    categoryWindows := Function.update s.categoryWindows x.category categoryWindow
    agents := Function.update s.agents x.agentId { a with spent := spent }
    consumed := Function.update s.consumed x.orderId true }

/-! ### Calls -/

/-- The external functions that can change the state. -/
inductive Call (Sig : Type)
  | wireSettlement (target : Address)
  | setCategory (id : ℕ) (value : Category) (observation : Bytes32) (deadline : ℕ)
      (signature : Sig)
  | setFees (reserve review : ℕ) (observation : Bytes32) (deadline : ℕ) (signature : Sig)
  | resume (observation : Bytes32) (deadline : ℕ) (signature : Sig)
  | emergencyPause (reason : Bytes32)
  | bindExecutor (executor owner : Address) (observation : Bytes32) (deadline : ℕ)
      (signature : Sig)
  | registerAgent (id : Bytes32) (executor : Address) (totalCap windowCap windowSeconds : ℕ)
  | setAgent (id : Bytes32) (executor : Address) (active : Bool)
      (totalCap windowCap windowSeconds : ℕ)
  | setCounterparty (id : Bytes32) (category : ℕ) (seller : Address) (allowed : Bool)
  | consume (x : Spend)

/-- Run one external call. -/
def exec (m : Msg) (s : State) : Call Sig → Except Revert State
  | .wireSettlement target => wireSettlement P m target s
  | .setCategory id value observation deadline signature =>
      setCategory K Z P m id value observation deadline signature s
  | .setFees reserve review observation deadline signature =>
      setFees K Z P m reserve review observation deadline signature s
  | .resume observation deadline signature => resume K Z P m observation deadline signature s
  | .emergencyPause _ => emergencyPause P m s
  | .bindExecutor executor owner observation deadline signature =>
      bindExecutor K Z P m executor owner observation deadline signature s
  | .registerAgent id executor totalCap windowCap windowSeconds =>
      registerAgent m id executor totalCap windowCap windowSeconds s
  | .setAgent id executor active totalCap windowCap windowSeconds =>
      setAgent m id executor active totalCap windowCap windowSeconds s
  | .setCounterparty id category seller allowed => setCounterparty m id category seller allowed s
  | .consume x => consume m x s

end ObolosPolicyEnvelope

end Obolos
