import Obolos.Evm.Basic

/-!
# `ObolosEconomicLedger`

The public record of paid orders: the settlement contract records a payment, the seller attests
its delivery once, the payer acknowledges exactly the attested output, and the reputation of a
seller counts the three.
-/

namespace Obolos

namespace ObolosEconomicLedger

/-- A paid order; a zero seller means that there is none. -/
structure Paid where
  payer : Address
  seller : Address
  serviceHash : Bytes32
  inputHash : Bytes32
  outputHash : Bytes32
  acknowledged : Bool
  deriving DecidableEq

/-- The counts of one seller. -/
structure Counts where
  paid : ℕ
  delivered : ℕ
  acknowledged : ℕ
  deriving DecidableEq

/-- The immutable variables, and the attester the constructor is given. -/
structure Params where
  controller : Address
  attester : Address
  /-- `block.chainid` -/
  chainid : ℕ
  /-- `address(this)` -/
  self : Address
  controller_ne : controller ≠ 0
  attester_ne : attester ≠ 0

/-- The storage. -/
structure State where
  settlement : Address
  attester : Address
  orders : Bytes32 → Paid
  reputation : Address → Counts
  observations : Bytes32 → Bool

variable (K : Keccak) (L : Params)

/-- The storage after the constructor. -/
def init : State where
  settlement := 0
  attester := L.attester
  orders := fun _ => ⟨0, 0, 0, 0, 0, false⟩
  reputation := fun _ => ⟨0, 0, 0⟩
  observations := fun _ => false

/-- `wireSettlement` -/
def wireSettlement (m : Msg) (target : Address) (s : State) : Except Revert State := do
  revertIf (m.sender ≠ L.controller) .Unauthorized
  revertIf (s.settlement ≠ 0 ∨ m.hasCode target = false) .Invalid
  return { s with settlement := target }

/-- `setAttester` -/
def setAttester (m : Msg) (target : Address) (s : State) : Except Revert State := do
  revertIf (m.sender ≠ L.controller) .Unauthorized
  revertIf (target = 0) .Invalid
  return { s with attester := target }

/-- The arguments of `recordPaid`; those that are only logged are left out of the storage. -/
structure Payment where
  orderId : Bytes32
  agentId : Bytes32
  payer : Address
  seller : Address
  serviceHash : Bytes32
  category : ℕ
  unitHash : Bytes32
  quantity : ℕ
  unitPrice : ℕ
  amount : ℕ
  inputHash : Bytes32
  deriving DecidableEq

/-- `recordPaid` -/
def recordPaid (m : Msg) (p : Payment) (s : State) : Except Revert State := do
  revertIf (m.sender ≠ s.settlement) .Unauthorized
  revertIf ((s.orders p.orderId).seller ≠ 0) .Invalid
  let count ← addU 256 (s.reputation p.seller).paid 1
  return { s with
    orders := Function.update s.orders p.orderId
      ⟨p.payer, p.seller, p.serviceHash, p.inputHash, 0, false⟩
    reputation := Function.update s.reputation p.seller
      { s.reputation p.seller with paid := count } }

/-- `attestDelivery` -/
def attestDelivery (m : Msg) (orderId outputHash : Bytes32) (s : State) :
    Except Revert State := do
  let p := s.orders orderId
  revertIf (m.sender ≠ p.seller) .Unauthorized
  revertIf (outputHash = 0 ∨ p.outputHash ≠ 0) .Invalid
  let count ← addU 256 (s.reputation m.sender).delivered 1
  return { s with
    orders := Function.update s.orders orderId { p with outputHash := outputHash }
    reputation := Function.update s.reputation m.sender
      { s.reputation m.sender with delivered := count } }

/-- `acknowledgeDelivery` -/
def acknowledgeDelivery (m : Msg) (orderId outputHash : Bytes32) (s : State) :
    Except Revert State := do
  let p := s.orders orderId
  revertIf (m.sender ≠ p.payer) .Unauthorized
  revertIf (outputHash = 0 ∨ outputHash ≠ p.outputHash ∨ p.acknowledged = true) .Invalid
  let count ← addU 256 (s.reputation p.seller).acknowledged 1
  return { s with
    orders := Function.update s.orders orderId { p with acknowledged := true }
    reputation := Function.update s.reputation p.seller
      { s.reputation p.seller with acknowledged := count } }

/-- The arguments of `recordObservation`. -/
structure Observation where
  metricId : Bytes32
  start : ℕ
  stop : ℕ
  value : BitVec 256
  baseline : ℕ
  inputRoot : Bytes32
  methodologyHash : Bytes32
  deriving DecidableEq

/-- The hash an observation is stored under. -/
def observationHash (o : Observation) : Bytes32 :=
  K.words [L.chainid, L.self.toNat, o.metricId.toNat, o.start, o.stop, o.value.toNat, o.baseline,
    o.inputRoot.toNat, o.methodologyHash.toNat]

/-- `recordObservation` -/
def recordObservation (m : Msg) (o : Observation) (s : State) : Except Revert State := do
  revertIf (m.sender ≠ s.attester) .Unauthorized
  revertIf (o.start ≥ o.stop ∨ o.stop > m.timestamp ∨ o.inputRoot = 0 ∨ o.methodologyHash = 0)
    .Invalid
  let h := observationHash K L o
  revertIf (s.observations h = true) .Invalid
  return { s with observations := Function.update s.observations h true }

/-- The external functions that can change the state. -/
inductive Call
  | wireSettlement (target : Address)
  | setAttester (target : Address)
  | recordPaid (p : Payment)
  | attestDelivery (orderId outputHash : Bytes32)
  | acknowledgeDelivery (orderId outputHash : Bytes32)
  | recordObservation (o : Observation)

/-- Run one external call. -/
def exec (m : Msg) (s : State) : Call → Except Revert State
  | .wireSettlement target => wireSettlement L m target s
  | .setAttester target => setAttester L m target s
  | .recordPaid p => recordPaid m p s
  | .attestDelivery orderId outputHash => attestDelivery m orderId outputHash s
  | .acknowledgeDelivery orderId outputHash => acknowledgeDelivery m orderId outputHash s
  | .recordObservation o => recordObservation K L m o s

/-! ### What each call does -/

variable {K L} {m : Msg} {s s' : State}

theorem recordPaid_ok {p : Payment} :
    recordPaid m p s = .ok s' ↔
      m.sender = s.settlement ∧ (s.orders p.orderId).seller = 0 ∧
      (s.reputation p.seller).paid + 1 < 2 ^ 256 ∧
      s' = { s with
        orders := Function.update s.orders p.orderId
          ⟨p.payer, p.seller, p.serviceHash, p.inputHash, 0, false⟩
        reputation := Function.update s.reputation p.seller
          { s.reputation p.seller with paid := (s.reputation p.seller).paid + 1 } } := by
  simp [recordPaid, and_assoc, @eq_comm _ _ s']

/-- The successful calls, one constructor for each external function. -/
inductive Change (K : Keccak) (L : Params) (m : Msg) (s : State) : Call → State → Prop
  | wireSettlement {target : Address} (sender : m.sender = L.controller)
      (unwired : s.settlement = 0) (code : m.hasCode target = true) :
      Change K L m s (.wireSettlement target) { s with settlement := target }
  | setAttester {target : Address} (sender : m.sender = L.controller) (target_ne : target ≠ 0) :
      Change K L m s (.setAttester target) { s with attester := target }
  | recordPaid {p : Payment} (sender : m.sender = s.settlement)
      (fresh : (s.orders p.orderId).seller = 0) :
      Change K L m s (.recordPaid p) { s with
        orders := Function.update s.orders p.orderId
          ⟨p.payer, p.seller, p.serviceHash, p.inputHash, 0, false⟩
        reputation := Function.update s.reputation p.seller
          { s.reputation p.seller with paid := (s.reputation p.seller).paid + 1 } }
  | attestDelivery {orderId outputHash : Bytes32} (sender : m.sender = (s.orders orderId).seller)
      (output_ne : outputHash ≠ 0) (fresh : (s.orders orderId).outputHash = 0) :
      Change K L m s (.attestDelivery orderId outputHash) { s with
        orders := Function.update s.orders orderId
          { s.orders orderId with outputHash := outputHash }
        reputation := Function.update s.reputation (s.orders orderId).seller
          { s.reputation (s.orders orderId).seller with
            delivered := (s.reputation (s.orders orderId).seller).delivered + 1 } }
  | acknowledgeDelivery {orderId outputHash : Bytes32}
      (sender : m.sender = (s.orders orderId).payer) (output_ne : outputHash ≠ 0)
      (attested : (s.orders orderId).outputHash = outputHash)
      (fresh : (s.orders orderId).acknowledged = false) :
      Change K L m s (.acknowledgeDelivery orderId outputHash) { s with
        orders := Function.update s.orders orderId { s.orders orderId with acknowledged := true }
        reputation := Function.update s.reputation (s.orders orderId).seller
          { s.reputation (s.orders orderId).seller with
            acknowledged := (s.reputation (s.orders orderId).seller).acknowledged + 1 } }
  | recordObservation {o : Observation} (sender : m.sender = s.attester) :
      Change K L m s (.recordObservation o) { s with
        observations := Function.update s.observations (observationHash K L o) true }

theorem change_of_exec {c : Call} (h : exec K L m s c = .ok s') : Change K L m s c s' := by
  cases c with
  | wireSettlement target =>
    obtain ⟨h₁, ⟨h₂, h₃⟩, rfl⟩ : _ ∧ (_ ∧ _) ∧ _ = s' := by simpa [exec, wireSettlement] using h
    exact .wireSettlement h₁ h₂ h₃
  | setAttester target =>
    obtain ⟨h₁, h₂, rfl⟩ : _ ∧ _ ∧ _ = s' := by simpa [exec, setAttester] using h
    exact .setAttester h₁ h₂
  | recordPaid p =>
    obtain ⟨h₁, h₂, -, rfl⟩ := recordPaid_ok.1 h
    exact .recordPaid h₁ h₂
  | attestDelivery orderId outputHash =>
    simp only [exec, attestDelivery, bind_eq_ok, revertIf_eq_ok, addU_eq_ok, pure_eq_ok] at h
    obtain ⟨-, h₁, -, h₂, _, ⟨-, rfl⟩, rfl⟩ := h
    simp only [not_or, not_not] at h₁ h₂
    rw [h₁]
    exact .attestDelivery h₁ h₂.1 h₂.2
  | acknowledgeDelivery orderId outputHash =>
    simp only [exec, acknowledgeDelivery, bind_eq_ok, revertIf_eq_ok, addU_eq_ok, pure_eq_ok] at h
    obtain ⟨-, h₁, -, h₂, _, ⟨-, rfl⟩, rfl⟩ := h
    simp only [not_or, not_not, Bool.not_eq_true] at h₁ h₂
    exact .acknowledgeDelivery h₁ h₂.1 h₂.2.1.symm h₂.2.2
  | recordObservation o =>
    simp only [exec, recordObservation, bind_eq_ok, revertIf_eq_ok, pure_eq_ok] at h
    obtain ⟨-, h₁, -, -, -, -, rfl⟩ := h
    exact .recordObservation (not_not.1 h₁)

end ObolosEconomicLedger

end Obolos
