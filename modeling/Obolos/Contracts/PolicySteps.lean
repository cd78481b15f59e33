import Obolos.Contracts.PolicyEnvelope
import Obolos.LTS.Run

/-!
# What each call of `ObolosPolicyEnvelope` does

One inversion lemma for every external function: the guards a successful call passed, and the
storage it left.  Everything later is derived from these, without unfolding a function again.

`lts` is the contract as a transition system: any caller, any call, timestamps that never
decrease, and reverting calls that leave the storage unchanged.
-/

namespace Obolos

namespace ObolosPolicyEnvelope

variable {Sig : Type} {K : Keccak} {Z : OpenZeppelin Sig} {P : Params} {m : Msg} {s s' : State}

/-! ### Inversion -/

/-- What a signed approval checks: the caller, the deadline, and a signature of the approver over
the digest that names the current nonce. -/
def Approved (K : Keccak) (Z : OpenZeppelin Sig) (P : Params) (m : Msg) (a : Action)
    (observation : Bytes32) (deadline : ℕ) (signature : Sig) (nonce : ℕ) : Prop :=
  m.sender = P.controller ∧ m.timestamp ≤ deadline ∧
    Z.recover (Z.toEthSignedMessageHash
      (approvalDigest K Z (K.words a.encode) observation nonce deadline)) signature =
        some P.approver

section Approvals

variable {observation : Bytes32} {deadline : ℕ} {signature : Sig}

theorem approve_ok {a : Action} :
    approve K Z P m (K.words a.encode) observation deadline signature s = .ok s' ↔
      Approved K Z P m a observation deadline signature s.approvalNonce ∧
      s.approvalNonce + 1 < 2 ^ 256 ∧ s.policyVersion + 1 < 2 ^ 64 ∧
      s' = { s with
        approvalNonce := s.approvalNonce + 1, policyVersion := s.policyVersion + 1 } := by
  simp [approve, Approved, and_assoc, @eq_comm _ _ s']

theorem setCategory_ok {id : ℕ} {value : Category} :
    setCategory K Z P m id value observation deadline signature s = .ok s' ↔
      id ≤ 4 ∧ value.windowSeconds ≠ 0 ∧
      Approved K Z P m (.category id value) observation deadline signature s.approvalNonce ∧
      s.approvalNonce + 1 < 2 ^ 256 ∧ s.policyVersion + 1 < 2 ^ 64 ∧
      s' = { s with
        approvalNonce := s.approvalNonce + 1, policyVersion := s.policyVersion + 1,
        categories := Function.update s.categories id value } := by
  simp [setCategory, approve_ok, and_assoc, @eq_comm _ _ s']

theorem setFees_ok {reserve review : ℕ} :
    setFees K Z P m reserve review observation deadline signature s = .ok s' ↔
      reserve + review ≤ MAX_FEE_BPS ∧
      Approved K Z P m (.fees reserve review) observation deadline signature s.approvalNonce ∧
      s.approvalNonce + 1 < 2 ^ 256 ∧ s.policyVersion + 1 < 2 ^ 64 ∧ s.feeVersion + 1 < 2 ^ 64 ∧
      s' = { s with
        approvalNonce := s.approvalNonce + 1, policyVersion := s.policyVersion + 1,
        reserveBps := reserve, reviewBps := review, feeVersion := s.feeVersion + 1 } := by
  have hsmall : reserve + review ≤ MAX_FEE_BPS → reserve + review < 2 ^ 256 := fun h =>
    h.trans_lt (by decide)
  simp only [setFees, bind_eq_ok, addU_eq_ok, revertIf_eq_ok, approve_ok, pure_eq_ok]
  constructor
  · rintro ⟨_, ⟨-, rfl⟩, -, hmax, t, ⟨ha, hn, hv, rfl⟩, _, ⟨hf, rfl⟩, rfl⟩
    exact ⟨by omega, ha, hn, hv, hf, rfl⟩
  · rintro ⟨hmax, ha, hn, hv, hf, rfl⟩
    exact ⟨_, ⟨hsmall hmax, rfl⟩, (), by omega, _, ⟨ha, hn, hv, rfl⟩, _, ⟨hf, rfl⟩, rfl⟩

theorem resume_ok :
    resume K Z P m observation deadline signature s = .ok s' ↔
      Approved K Z P m .resume observation deadline signature s.approvalNonce ∧
      s.approvalNonce + 1 < 2 ^ 256 ∧ s.policyVersion + 1 < 2 ^ 64 ∧
      s' = { s with
        approvalNonce := s.approvalNonce + 1, policyVersion := s.policyVersion + 1,
        marketEnabled := true } := by
  simp [resume, approve_ok, and_assoc, @eq_comm _ _ s']

theorem bindExecutor_ok {executor owner : Address} :
    bindExecutor K Z P m executor owner observation deadline signature s = .ok s' ↔
      executor ≠ 0 ∧ owner ≠ 0 ∧ s.executorOwners executor = 0 ∧
      Approved K Z P m (.executorOwner executor owner) observation deadline signature
        s.approvalNonce ∧
      s.approvalNonce + 1 < 2 ^ 256 ∧ s.policyVersion + 1 < 2 ^ 64 ∧
      s' = { s with
        approvalNonce := s.approvalNonce + 1, policyVersion := s.policyVersion + 1,
        executorOwners := Function.update s.executorOwners executor owner } := by
  simp [bindExecutor, approve_ok, and_assoc, @eq_comm _ _ s']

end Approvals

theorem wireSettlement_ok {target : Address} :
    wireSettlement P m target s = .ok s' ↔
      m.sender = P.controller ∧ s.settlement = 0 ∧ m.hasCode target = true ∧
      s' = { s with settlement := target } := by
  simp [wireSettlement, and_assoc, @eq_comm _ _ s']

theorem emergencyPause_ok :
    emergencyPause P m s = .ok s' ↔
      (m.sender = P.guardian ∨ m.sender = P.controller) ∧
      s.policyVersion + 1 < 2 ^ 64 ∧ s.approvalNonce + 1 < 2 ^ 256 ∧
      s' = { s with
        marketEnabled := false, policyVersion := s.policyVersion + 1,
        approvalNonce := s.approvalNonce + 1 } := by
  simp [emergencyPause, and_assoc, @eq_comm _ _ s', or_iff_not_imp_left]

theorem registerAgent_ok {id : Bytes32} {executor : Address}
    {totalCap windowCap windowSeconds : ℕ} :
    registerAgent m id executor totalCap windowCap windowSeconds s = .ok s' ↔
      s.executorOwners executor = m.sender ∧ id ≠ 0 ∧ (s.agents id).owner = 0 ∧ executor ≠ 0 ∧
      windowSeconds ≠ 0 ∧
      s' = { s with
        agents := Function.update s.agents id
          ⟨m.sender, executor, true, totalCap, 0, windowCap, windowSeconds⟩
        agentVersions := Function.update s.agentVersions id 1 } := by
  simp [registerAgent, and_assoc, @eq_comm _ _ s']

theorem setAgent_ok {id : Bytes32} {executor : Address} {active : Bool}
    {totalCap windowCap windowSeconds : ℕ} :
    setAgent m id executor active totalCap windowCap windowSeconds s = .ok s' ↔
      m.sender = (s.agents id).owner ∧ s.executorOwners executor = (s.agents id).owner ∧
      executor ≠ 0 ∧ windowSeconds ≠ 0 ∧ (s.agents id).spent ≤ totalCap ∧
      s.agentVersions id + 1 < 2 ^ 64 ∧
      s' = { s with
        agents := Function.update s.agents id { s.agents id with
          executor := executor, active := active, totalCap := totalCap, windowCap := windowCap,
          windowSeconds := windowSeconds }
        agentVersions := Function.update s.agentVersions id (s.agentVersions id + 1) } := by
  simp [setAgent, and_assoc, @eq_comm _ _ s']

theorem setCounterparty_ok {id : Bytes32} {category : ℕ} {seller : Address} {allowed : Bool} :
    setCounterparty m id category seller allowed s = .ok s' ↔
      m.sender = (s.agents id).owner ∧ category ≤ 4 ∧ seller ≠ 0 ∧
      s.agentVersions id + 1 < 2 ^ 64 ∧
      s' = { s with
        counterparties := Function.update s.counterparties id
          (Function.update (s.counterparties id) category
            (Function.update (s.counterparties id category) seller allowed))
        agentVersions := Function.update s.agentVersions id (s.agentVersions id + 1) } := by
  simp [setCounterparty, and_assoc, @eq_comm _ _ s']

/-- The guards of `consume` that concern the policy and the mandate (not the windows). -/
structure Permitted (m : Msg) (x : Spend) (s : State) : Prop where
  sender : m.sender = s.settlement
  enabled : s.marketEnabled = true
  version : x.version = s.policyVersion
  agentVersion : x.agentVersion = s.agentVersions x.agentId
  fresh : s.consumed x.orderId = false
  bound : s.executorOwners x.executor = (s.agents x.agentId).owner
  executor : x.executor = (s.agents x.agentId).executor
  active : (s.agents x.agentId).active = true
  seller : s.counterparties x.agentId x.category x.seller = true
  category : (s.categories x.category).enabled = true
  pos : x.amount ≠ 0
  perOrder : x.amount ≤ (s.categories x.category).perOrderCap
  word : (s.agents x.agentId).spent + x.amount < 2 ^ 256
  total : (s.agents x.agentId).spent + x.amount ≤ (s.agents x.agentId).totalCap

/-- The storage after a successful `consume`, given the two windows it computed. -/
def spend (x : Spend) (agentWindow categoryWindow : Window) (s : State) : State :=
  { s with
    agentWindows := Function.update s.agentWindows x.agentId agentWindow
    categoryWindows := Function.update s.categoryWindows x.category categoryWindow
    agents := Function.update s.agents x.agentId
      { s.agents x.agentId with spent := (s.agents x.agentId).spent + x.amount }
    consumed := Function.update s.consumed x.orderId true }

theorem consume_ok {x : Spend} :
    consume m x s = .ok s' ↔
      Permitted m x s ∧ ∃ wa wc,
        consumeWindow m.timestamp (s.agentWindows x.agentId) x.amount
          (s.agents x.agentId).windowCap (s.agents x.agentId).windowSeconds
          (s.categories x.category).delaySeconds = .ok wa ∧
        consumeWindow m.timestamp (s.categoryWindows x.category) x.amount
          (s.categories x.category).windowCap (s.categories x.category).windowSeconds
          (s.categories x.category).delaySeconds = .ok wc ∧
        s' = spend x wa wc s := by
  simp only [consume, bind_eq_ok, revertIf_eq_ok, addU_eq_ok, pure_eq_ok]
  constructor
  · rintro ⟨-, h₁, -, h₂, -, h₃, -, h₄, -, h₅, _, ⟨hw, rfl⟩, -, ht, wa, ha, wc, hc, rfl⟩
    simp only [not_or, not_not, Bool.not_eq_false, Bool.not_eq_true] at h₁ h₂ h₃ h₄ h₅
    exact ⟨⟨h₁, h₂, h₃.1, h₃.2.1, h₃.2.2, h₄.1, h₄.2.1, h₄.2.2.1, h₄.2.2.2, h₅.1, h₅.2.1,
      by omega, hw, by omega⟩, wa, wc, ha, hc, rfl⟩
  · rintro ⟨h, wa, wc, ha, hc, rfl⟩
    refine ⟨(), by simp [h.sender], (), by simp [h.enabled], (), ?_, (), ?_, (), ?_, _,
      ⟨h.word, rfl⟩, (), by have := h.total; omega, wa, ha, wc, hc, rfl⟩
    · simp [h.version, h.agentVersion, h.fresh]
    · simp [h.bound, ← h.executor, h.active, h.seller]
    · simp [h.category, h.pos, h.perOrder]

/-! ### One lemma for all calls -/

section Change

variable (K Z P)

/-- The successful calls, one constructor for each external function. -/
inductive Change (m : Msg) (s : State) : Call Sig → State → Prop
  | wireSettlement {target : Address} (sender : m.sender = P.controller)
      (unwired : s.settlement = 0) (code : m.hasCode target = true) :
      Change m s (.wireSettlement target) { s with settlement := target }
  | setCategory {id : ℕ} {value : Category} {observation : Bytes32} {deadline : ℕ} {signature : Sig}
      (range : id ≤ 4) (seconds : value.windowSeconds ≠ 0)
      (approved : Approved K Z P m (.category id value) observation deadline signature
        s.approvalNonce) :
      Change m s (.setCategory id value observation deadline signature) { s with
        approvalNonce := s.approvalNonce + 1, policyVersion := s.policyVersion + 1,
        categories := Function.update s.categories id value }
  | setFees {reserve review : ℕ} {observation : Bytes32} {deadline : ℕ} {signature : Sig}
      (bound : reserve + review ≤ MAX_FEE_BPS)
      (approved : Approved K Z P m (.fees reserve review) observation deadline signature
        s.approvalNonce) :
      Change m s (.setFees reserve review observation deadline signature) { s with
        approvalNonce := s.approvalNonce + 1, policyVersion := s.policyVersion + 1,
        reserveBps := reserve, reviewBps := review, feeVersion := s.feeVersion + 1 }
  | resume {observation : Bytes32} {deadline : ℕ} {signature : Sig}
      (approved : Approved K Z P m .resume observation deadline signature s.approvalNonce) :
      Change m s (.resume observation deadline signature) { s with
        approvalNonce := s.approvalNonce + 1, policyVersion := s.policyVersion + 1,
        marketEnabled := true }
  | emergencyPause {reason : Bytes32}
      (sender : m.sender = P.guardian ∨ m.sender = P.controller) :
      Change m s (.emergencyPause reason) { s with
        marketEnabled := false, policyVersion := s.policyVersion + 1,
        approvalNonce := s.approvalNonce + 1 }
  | bindExecutor {executor owner : Address} {observation : Bytes32} {deadline : ℕ}
      {signature : Sig} (executor_ne : executor ≠ 0) (owner_ne : owner ≠ 0)
      (unbound : s.executorOwners executor = 0)
      (approved : Approved K Z P m (.executorOwner executor owner) observation deadline signature
        s.approvalNonce) :
      Change m s (.bindExecutor executor owner observation deadline signature) { s with
        approvalNonce := s.approvalNonce + 1, policyVersion := s.policyVersion + 1,
        executorOwners := Function.update s.executorOwners executor owner }
  | registerAgent {id : Bytes32} {executor : Address} {totalCap windowCap windowSeconds : ℕ}
      (bound : s.executorOwners executor = m.sender) (unowned : (s.agents id).owner = 0)
      (executor_ne : executor ≠ 0) (seconds : windowSeconds ≠ 0) :
      Change m s (.registerAgent id executor totalCap windowCap windowSeconds) { s with
        agents := Function.update s.agents id
          ⟨m.sender, executor, true, totalCap, 0, windowCap, windowSeconds⟩
        agentVersions := Function.update s.agentVersions id 1 }
  | setAgent {id : Bytes32} {executor : Address} {active : Bool}
      {totalCap windowCap windowSeconds : ℕ} (owner : m.sender = (s.agents id).owner)
      (bound : s.executorOwners executor = (s.agents id).owner) (executor_ne : executor ≠ 0)
      (seconds : windowSeconds ≠ 0) (cap : (s.agents id).spent ≤ totalCap) :
      Change m s (.setAgent id executor active totalCap windowCap windowSeconds) { s with
        agents := Function.update s.agents id { s.agents id with
          executor := executor, active := active, totalCap := totalCap, windowCap := windowCap,
          windowSeconds := windowSeconds }
        agentVersions := Function.update s.agentVersions id (s.agentVersions id + 1) }
  | setCounterparty {id : Bytes32} {category : ℕ} {seller : Address} {allowed : Bool}
      (owner : m.sender = (s.agents id).owner) (seller_ne : seller ≠ 0) :
      Change m s (.setCounterparty id category seller allowed) { s with
        counterparties := Function.update s.counterparties id
          (Function.update (s.counterparties id) category
            (Function.update (s.counterparties id category) seller allowed))
        agentVersions := Function.update s.agentVersions id (s.agentVersions id + 1) }
  | consume {x : Spend} {wa wc : Window} (permitted : Permitted m x s)
      (agentWindow : consumeWindow m.timestamp (s.agentWindows x.agentId) x.amount
        (s.agents x.agentId).windowCap (s.agents x.agentId).windowSeconds
        (s.categories x.category).delaySeconds = .ok wa)
      (categoryWindow : consumeWindow m.timestamp (s.categoryWindows x.category) x.amount
        (s.categories x.category).windowCap (s.categories x.category).windowSeconds
        (s.categories x.category).delaySeconds = .ok wc) :
      Change m s (.consume x) (spend x wa wc s)

end Change

theorem change_of_exec {c : Call Sig} (h : exec K Z P m s c = .ok s') : Change K Z P m s c s' := by
  cases c with
  | wireSettlement target =>
    obtain ⟨h₁, h₂, h₃, rfl⟩ := wireSettlement_ok.1 h; exact .wireSettlement h₁ h₂ h₃
  | setCategory id value observation deadline signature =>
    obtain ⟨h₁, h₂, h₃, -, -, rfl⟩ := setCategory_ok.1 h; exact .setCategory h₁ h₂ h₃
  | setFees reserve review observation deadline signature =>
    obtain ⟨h₁, h₂, -, -, -, rfl⟩ := setFees_ok.1 h; exact .setFees h₁ h₂
  | resume observation deadline signature =>
    obtain ⟨h₁, -, -, rfl⟩ := resume_ok.1 h; exact .resume h₁
  | emergencyPause reason =>
    obtain ⟨h₁, -, -, rfl⟩ := emergencyPause_ok.1 h; exact .emergencyPause h₁
  | bindExecutor executor owner observation deadline signature =>
    obtain ⟨h₁, h₂, h₃, h₄, -, -, rfl⟩ := bindExecutor_ok.1 h; exact .bindExecutor h₁ h₂ h₃ h₄
  | registerAgent id executor totalCap windowCap windowSeconds =>
    obtain ⟨h₁, -, h₂, h₃, h₄, rfl⟩ := registerAgent_ok.1 h; exact .registerAgent h₁ h₂ h₃ h₄
  | setAgent id executor active totalCap windowCap windowSeconds =>
    obtain ⟨h₁, h₂, h₃, h₄, h₅, -, rfl⟩ := setAgent_ok.1 h; exact .setAgent h₁ h₂ h₃ h₄ h₅
  | setCounterparty id category seller allowed =>
    obtain ⟨h₁, -, h₂, -, rfl⟩ := setCounterparty_ok.1 h; exact .setCounterparty h₁ h₂
  | consume x =>
    obtain ⟨h₁, wa, wc, h₂, h₃, rfl⟩ := consume_ok.1 h; exact .consume h₁ h₂ h₃

/-! ### Runs -/

/-- The storage, and the timestamp of the last block. -/
structure World where
  state : State
  now : ℕ

/-- A transaction calling the contract, and whether it succeeded. -/
structure Tx (Sig : Type) where
  msg : Msg
  call : Call Sig
  success : Bool

/-- The world before the first transaction. -/
def World.init : World := ⟨ObolosPolicyEnvelope.init, 0⟩

section Lts

variable (K Z P)

/-- Any caller makes any call at a time that is not in the past; a reverting call changes
nothing. -/
def lts : LTS World (Tx Sig) where
  step w tx w' := w.now ≤ tx.msg.timestamp ∧ w'.now = tx.msg.timestamp ∧
    match exec K Z P tx.msg w.state tx.call with
    | .ok s => tx.success = true ∧ w'.state = s
    | .error _ => tx.success = false ∧ w'.state = w.state

end Lts

variable {w w' : World} {tx : Tx Sig} {τ : List (Tr World (Tx Sig))}

theorem step_time (h : (lts K Z P).step w tx w') :
    w.now ≤ tx.msg.timestamp ∧ w'.now = tx.msg.timestamp := ⟨h.1, h.2.1⟩

/-- A transaction either changes the storage the way its call does, or leaves it alone. -/
theorem step_cases (h : (lts K Z P).step w tx w') :
    (tx.success = true ∧ Change K Z P tx.msg w.state tx.call w'.state) ∨
      (tx.success = false ∧ w'.state = w.state) := by
  obtain ⟨-, -, h⟩ := h
  split at h
  · rename_i s hs
    exact Or.inl ⟨h.1, h.2 ▸ change_of_exec hs⟩
  · exact Or.inr h

/-- A predicate of the storage that every successful call preserves holds after every run. -/
theorem run_invariant {I : State → Prop} (h : (lts K Z P).Run w τ w') (h₀ : I w.state)
    (hstep : ∀ m s c s', I s → Change K Z P m s c s' → I s') : I w'.state := by
  refine h.invariant (I := fun w => I w.state) h₀ fun w tx w' hI hst => ?_
  rcases step_cases hst with ⟨-, hc⟩ | ⟨-, he⟩
  · exact hstep _ _ _ _ hI hc
  · rwa [he]

theorem now_le (h : (lts K Z P).Run w τ w') : w.now ≤ w'.now :=
  h.rel (I := fun _ => True) (R := fun w w' => w.now ≤ w'.now) trivial (fun _ _ _ _ _ => trivial)
    (fun _ => le_rfl) (fun _ _ _ => le_trans) fun _ _ _ _ hst => by
      have := step_time hst; omega

/-- The argument of a successful `consume`. -/
def Tx.spend? (tx : Tx Sig) : Option Spend :=
  match tx.call with
  | .consume x => if tx.success then some x else none
  | _ => none

theorem spend?_eq_some {x : Spend} :
    tx.spend? = some x ↔ tx.call = .consume x ∧ tx.success = true := by
  unfold Tx.spend?
  split
  · rename_i y hy
    split_ifs with hs <;> simp [hy, hs]
  · rename_i hne
    simp only [reduceCtorEq, false_iff, not_and]
    exact fun hc => absurd hc (hne x)

/-- The successful spends of a run, in order. -/
def spends (τ : List (Tr World (Tx Sig))) : List Spend := τ.filterMap fun e => e.lab.spend?

@[simp] theorem spends_nil : spends ([] : List (Tr World (Tx Sig))) = [] := rfl

@[simp] theorem spends_append (σ : List (Tr World (Tx Sig))) :
    spends (τ ++ σ) = spends τ ++ spends σ := List.filterMap_append

theorem spends_singleton {e : Tr World (Tx Sig)} : spends [e] = e.lab.spend?.toList := by
  unfold spends
  cases h : e.lab.spend? <;> simp [h]

/-- What a successful spend did to the storage. -/
theorem step_spend {x : Spend} (h : (lts K Z P).step w tx w') (hx : tx.spend? = some x) :
    Permitted tx.msg x w.state ∧ ∃ wa wc,
      consumeWindow tx.msg.timestamp (w.state.agentWindows x.agentId) x.amount
        (w.state.agents x.agentId).windowCap (w.state.agents x.agentId).windowSeconds
        (w.state.categories x.category).delaySeconds = .ok wa ∧
      consumeWindow tx.msg.timestamp (w.state.categoryWindows x.category) x.amount
        (w.state.categories x.category).windowCap (w.state.categories x.category).windowSeconds
        (w.state.categories x.category).delaySeconds = .ok wc ∧
      w'.state = spend x wa wc w.state := by
  obtain ⟨hc, hs⟩ := spend?_eq_some.1 hx
  rcases step_cases h with ⟨-, hch⟩ | ⟨hf, -⟩
  · rw [hc] at hch
    generalize hw : w'.state = s' at hch
    cases hch with
    | consume hp ha hc => exact ⟨hp, _, _, ha, hc, rfl⟩
  · rw [hs] at hf; cases hf

/-! ### Executing a list of calls -/

section Play

variable (K Z P)

/-- Perform one call. -/
def perform (w : World) (x : Msg × Call Sig) : Tr World (Tx Sig) :=
  match exec K Z P x.1 w.state x.2 with
  | .ok s => ⟨w, ⟨x.1, x.2, true⟩, ⟨s, x.1.timestamp⟩⟩
  | .error _ => ⟨w, ⟨x.1, x.2, false⟩, ⟨w.state, x.1.timestamp⟩⟩

/-- The call does not come before the last block. -/
abbrev Timely (w : World) (x : Msg × Call Sig) : Prop := w.now ≤ x.1.timestamp

variable {K Z P}

theorem perform_step {x : Msg × Call Sig} (h : Timely w x) :
    (perform K Z P w x).pre = w ∧
      (lts K Z P).step w (perform K Z P w x).lab (perform K Z P w x).post := by
  unfold perform
  cases he : exec K Z P x.1 w.state x.2 with
  | ok s => exact ⟨rfl, h, rfl, by simp [he]⟩
  | error r => exact ⟨rfl, h, rfl, by simp [he]⟩

/-- Performing timely calls is a run. -/
theorem play_run (w : World) (cs : List (Msg × Call Sig))
    (h : LTS.Playable (perform K Z P) Timely w cs) :
    (lts K Z P).Run w (LTS.play (perform K Z P) w cs).1 (LTS.play (perform K Z P) w cs).2 :=
  LTS.Run.play (fun _ _ => perform_step) w cs h

end Play

/-! ### A small deployment

A concrete deployment on which the results below are instantiated: accounts `1` to `7` are the
controller, the approver, the guardian, an owner, its executor, a seller and the settlement
contract.  The hash is a toy that has no collisions on the inputs used. -/

namespace Demo

/-- A stand-in for `keccak256`. -/
def keccak : Keccak where
  words ws := BitVec.ofNat 256 (2 * ws.foldl (fun h v => h * 1000003 + v + 1) 7 + 1)
  text s := BitVec.ofNat 256 (s.toList.foldl (fun h v => h * 257 + v.toNat + 1) 5)

/-- A stand-in for the signature helpers: the approver's signature of a hash is the hash. -/
def openZeppelin : OpenZeppelin Bytes32 where
  hashTypedDataV4 h := h + 1
  toEthSignedMessageHash h := h + 2
  recover h signature := if signature = h then some 2 else none

theorem controller_ne : (1 : Address) ≠ 0 := by decide

/-- The deployment. -/
def params : Params where
  controller := 1
  approver := 2
  guardian := 3
  controller_ne := controller_ne
  approver_ne := by decide
  guardian_ne := by decide

/-- The approver's signature. -/
def sign (a : Action) (nonce deadline : ℕ) : Bytes32 :=
  approvalDigest keccak openZeppelin (keccak.words a.encode) 0 nonce deadline + 2

/-! The accounts that send messages are not the zero address. -/

theorem controller_sender : BitVec.ofNat 160 (0 + 1) ≠ 0 := by decide

theorem guardian_sender : BitVec.ofNat 160 (2 + 1) ≠ 0 := by decide

theorem owner_sender : BitVec.ofNat 160 (3 + 1) ≠ 0 := by decide

theorem executor_sender : BitVec.ofNat 160 (4 + 1) ≠ 0 := by decide

theorem seller_sender : BitVec.ofNat 160 (5 + 1) ≠ 0 := by decide

theorem settlement_sender : BitVec.ofNat 160 (6 + 1) ≠ 0 := by decide

/-- A message of account `n + 1` at time `t + 1`. -/
def msg (n t : ℕ) (h : BitVec.ofNat 160 (n + 1) ≠ 0) : Msg where
  sender := BitVec.ofNat 160 (n + 1)
  timestamp := t + 1
  hasCode := fun _ => true
  sender_ne := h
  timestamp_pos := Nat.succ_pos t

/-- The limits of category `3`. -/
def limits : Category := ⟨true, 100, 200, 3600, 0⟩

/-- Wiring, enrollment, one mandate (agent `9`) with one allowed seller. -/
def setup : List (Msg × Call Bytes32) :=
  [(msg 0 0 controller_sender, .wireSettlement 7),
   (msg 0 0 controller_sender, .bindExecutor 5 4 0 50 (sign (.executorOwner 5 4) 0 50)),
   (msg 0 0 controller_sender, .setCategory 3 limits 0 50 (sign (.category 3 limits) 1 50)),
   (msg 3 1 owner_sender, .registerAgent 9 5 150 120 3600),
   (msg 3 1 owner_sender, .setCounterparty 9 3 6 true)]

/-- A spend of `amount` for order `o` under agent `9`. -/
def order (o : Bytes32) (amount : ℕ) : Spend := ⟨o, 9, 5, 3, 6, amount, 3, 2⟩

/-- Two spends and, between them, a rejected replay of the first. -/
def spending : List (Msg × Call Bytes32) :=
  [(msg 6 2 settlement_sender, .consume (order 11 60)), (msg 6 3 settlement_sender, .consume (order 11 60)),
    (msg 6 4 settlement_sender, .consume (order 12 50))]

/-- Calls performed on the small deployment. -/
abbrev run (w : World) (cs : List (Msg × Call Bytes32)) :
    List (Tr World (Tx Bytes32)) × World :=
  LTS.play (perform keccak openZeppelin params) w cs

end Demo

end ObolosPolicyEnvelope

end Obolos
