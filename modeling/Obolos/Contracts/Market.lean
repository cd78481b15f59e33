import Obolos.Contracts.Erc20

/-!
# The three contracts together

`lts` is the joint transition system of `ObolosPolicyEnvelope`, `ObolosMarketSettlement`,
`ObolosEconomicLedger` and the token: every transaction is one external call to one of them, by
any account other than the three contracts themselves (which only ever call what their code
calls), or a transaction on the token by anybody.

`policy_run` : what happens to the policy during a joint run is a run of the policy alone, in
which a settlement appears as the `consume` it performs.  All results about runs of the policy
therefore hold in the market.
-/

namespace Obolos

namespace Market

open ObolosMarketSettlement (Token World Order Settled)

/-- A deployment: the platform functions and the immutable variables of the three contracts. -/
structure Deployment (Sig : Type) where
  keccak : Keccak
  openZeppelin : OpenZeppelin Sig
  policy : ObolosPolicyEnvelope.Params
  ledger : ObolosEconomicLedger.Params
  settlement : ObolosMarketSettlement.Params

variable {Sig : Type} {T : Token} (E : Deployment Sig)

/-- An account that is none of the three contracts. -/
def Deployment.External (a : Address) : Prop :=
  a ≠ E.settlement.self ∧ a ≠ E.settlement.policy ∧ a ≠ E.settlement.ledger

/-- The external calls of the three contracts; `token` is a transaction on the token that leaves
it with the given storage. -/
inductive Call (Sig : Type) (T : Token)
  | policy (c : ObolosPolicyEnvelope.Call Sig)
  | ledger (c : ObolosEconomicLedger.Call)
  | registerService (category : ℕ) (unitHash : Bytes32) (quantity unitPrice : ℕ)
      (endpointHash : Bytes32)
  | settle (o : Order)
  | token (t : T.Storage)

/-- Run one external call. -/
def exec (m : Msg) (w : World T) : Call Sig T → Except Revert (World T)
  | .policy c => do
      let p ← ObolosPolicyEnvelope.exec E.keccak E.openZeppelin E.policy m w.policy c
      return { w with policy := p }
  | .ledger c => do
      let l ← ObolosEconomicLedger.exec E.keccak E.ledger m w.ledger c
      return { w with ledger := l }
  | .registerService category unitHash quantity unitPrice endpointHash => do
      let s ← ObolosMarketSettlement.registerService E.keccak E.settlement m category unitHash
        quantity unitPrice endpointHash w.settlement
      return { w with settlement := s }
  | .settle o => ObolosMarketSettlement.settle E.keccak E.settlement m o w
  | .token t => .ok { w with token := t }

/-- The joint storage, and the timestamp of the last block. -/
structure State (T : Token) where
  world : World T
  now : ℕ

/-- A transaction, and whether it succeeded. -/
structure Tx (Sig : Type) (T : Token) where
  msg : Msg
  call : Call Sig T
  success : Bool

/-- The storage right after the deployment. -/
def init (t : T.Storage) : State T where
  world :=
    { policy := ObolosPolicyEnvelope.init
      ledger := ObolosEconomicLedger.init E.ledger
      settlement := ObolosMarketSettlement.init
      token := t }
  now := 0

/-- Any interleaving of external calls by accounts other than the contracts, at times that never
decrease; a reverting transaction changes nothing. -/
def lts (T : Token) : LTS (State T) (Tx Sig T) where
  step s tx s' := E.External tx.msg.sender ∧ s.now ≤ tx.msg.timestamp ∧
    s'.now = tx.msg.timestamp ∧
      match exec E tx.msg s.world tx.call with
      | .ok w => tx.success = true ∧ s'.world = w
      | .error _ => tx.success = false ∧ s'.world = s.world

/-- The successful calls. -/
inductive Change (m : Msg) (w : World T) : Call Sig T → World T → Prop
  | policy {c : ObolosPolicyEnvelope.Call Sig} {p : ObolosPolicyEnvelope.State}
      (exec : ObolosPolicyEnvelope.exec E.keccak E.openZeppelin E.policy m w.policy c = .ok p) :
      Change m w (.policy c) { w with policy := p }
  | ledger {c : ObolosEconomicLedger.Call} {l : ObolosEconomicLedger.State}
      (change : ObolosEconomicLedger.Change E.keccak E.ledger m w.ledger c l) :
      Change m w (.ledger c) { w with ledger := l }
  | registerService {category : ℕ} {unitHash : Bytes32} {quantity unitPrice : ℕ}
      {endpointHash : Bytes32} {s : ObolosMarketSettlement.State}
      (registered : ObolosMarketSettlement.registerService E.keccak E.settlement m category unitHash
        quantity unitPrice endpointHash w.settlement = .ok s) :
      Change m w (.registerService category unitHash quantity unitPrice endpointHash)
        { w with settlement := s }
  | settle {o : Order} {w' : World T} (settled : Settled E.keccak E.settlement m o w w') :
      Change m w (.settle o) w'
  | token {t : T.Storage} : Change m w (.token t) { w with token := t }

variable {E} {m : Msg} {w w' : World T} {s s' : State T} {tx : Tx Sig T}
  {τ : List (Tr (State T) (Tx Sig T))}

theorem change_of_exec {c : Call Sig T} (h : exec E m w c = .ok w') : Change E m w c w' := by
  cases c with
  | policy c =>
    simp only [exec, bind_eq_ok, pure_eq_ok] at h
    obtain ⟨p, hp, rfl⟩ := h
    exact .policy hp
  | ledger c =>
    simp only [exec, bind_eq_ok, pure_eq_ok] at h
    obtain ⟨l, hl, rfl⟩ := h
    exact .ledger (ObolosEconomicLedger.change_of_exec hl)
  | registerService category unitHash quantity unitPrice endpointHash =>
    simp only [exec, bind_eq_ok, pure_eq_ok] at h
    obtain ⟨s, hs, rfl⟩ := h
    exact .registerService hs
  | settle o => exact .settle (ObolosMarketSettlement.settled_of_settle h)
  | token t =>
    obtain rfl : { w with token := t } = w' := by simpa [exec] using h
    exact .token

theorem step_external (h : (lts E T).step s tx s') : E.External tx.msg.sender := h.1

theorem step_time (h : (lts E T).step s tx s') :
    s.now ≤ tx.msg.timestamp ∧ s'.now = tx.msg.timestamp := ⟨h.2.1, h.2.2.1⟩

/-- A transaction either changes the storage the way its call does, or leaves it alone. -/
theorem step_cases (h : (lts E T).step s tx s') :
    (tx.success = true ∧ Change E tx.msg s.world tx.call s'.world) ∨
      (tx.success = false ∧ s'.world = s.world) := by
  obtain ⟨-, -, -, h⟩ := h
  split at h
  · rename_i w hw
    exact Or.inl ⟨h.1, h.2 ▸ change_of_exec hw⟩
  · exact Or.inr h

/-- A predicate of the storage that every successful external call preserves holds after every
run. -/
theorem run_invariant {I : World T → Prop} (h : (lts E T).Run s τ s') (h₀ : I s.world)
    (hstep : ∀ m w c w', E.External m.sender → I w → Change E m w c w' → I w') : I s'.world := by
  refine h.invariant (I := fun s => I s.world) h₀ fun s tx s' hI hst => ?_
  rcases step_cases hst with ⟨-, hc⟩ | ⟨-, he⟩
  · exact hstep _ _ _ _ (step_external hst) hI hc
  · rwa [he]

/-- What a successful settlement did. -/
theorem settled_of_step {o : Order} (h : (lts E T).step s tx s') (hc : tx.call = .settle o)
    (hs : tx.success = true) : Settled E.keccak E.settlement tx.msg o s.world s'.world := by
  rcases step_cases h with ⟨-, hch⟩ | ⟨hf, -⟩
  · rw [hc] at hch
    generalize s'.world = w' at hch ⊢
    cases hch with
    | settle settled => exact settled
  · rw [hs] at hf; cases hf

/-! ### The policy inside the market -/

/-- What a market transaction is for the policy. -/
def policyTx (D : ObolosMarketSettlement.Params) (tx : Tx Sig T) :
    Option (ObolosPolicyEnvelope.Tx Sig) :=
  match tx.call with
  | .policy c => some ⟨tx.msg, c, tx.success⟩
  | .settle o =>
      if tx.success then
        some ⟨ObolosMarketSettlement.internal D tx.msg, .consume (o.spend tx.msg.sender), true⟩
      else none
  | _ => none

/-- The policy part of a market state, at some time not after its own. -/
def PolicyAt (s : State T) (p : ObolosPolicyEnvelope.World) : Prop :=
  p.state = s.world.policy ∧ p.now ≤ s.now

theorem policy_step {p : ObolosPolicyEnvelope.World} (h : (lts E T).step s tx s')
    (hp : PolicyAt s p) :
    match policyTx E.settlement tx with
    | none => PolicyAt s' p
    | some l => ∃ p', (ObolosPolicyEnvelope.lts E.keccak E.openZeppelin E.policy).step p l p' ∧
        PolicyAt s' p' := by
  obtain ⟨hpw, hpn⟩ := hp
  obtain ⟨ht, hnow⟩ := step_time h
  have hlt : p.now ≤ tx.msg.timestamp := hpn.trans ht
  unfold policyTx
  cases hc : tx.call with
  | policy c =>
    simp only
    obtain ⟨-, -, -, h⟩ := h
    simp only [hc, exec] at h
    cases he : ObolosPolicyEnvelope.exec E.keccak E.openZeppelin E.policy tx.msg s.world.policy c with
    | ok q =>
      rw [he] at h
      obtain ⟨hs, hw⟩ := h
      exact ⟨⟨q, tx.msg.timestamp⟩, ⟨hlt, rfl, by simp [hpw, he, hs]⟩, by rw [hw], hnow.ge⟩
    -- A call that reverts is a step of the policy contract that changes nothing.
    | error r =>
      rw [he] at h
      obtain ⟨hs, hw⟩ := h
      exact ⟨⟨p.state, tx.msg.timestamp⟩, ⟨hlt, rfl, by simp [hpw, he, hs]⟩, by rw [hw]; exact hpw,
        hnow.ge⟩
  | settle o =>
    -- A settlement that succeeds calls `consumeSpend`; one that reverts calls nothing.
    rcases step_cases h with ⟨hs, hch⟩ | ⟨hs, hw⟩
    · rw [hc] at hch
      simp only [hs, ↓reduceIte]
      generalize hw : s'.world = w' at hch
      cases hch with
      | settle settled =>
        refine ⟨⟨w'.policy, tx.msg.timestamp⟩, ⟨hlt, rfl, ?_⟩, by rw [hw], hnow.ge⟩
        simp only [ObolosPolicyEnvelope.exec, hpw]
        rw [settled.consumed]
        exact ⟨trivial, rfl⟩
    · simp only [hs, Bool.false_eq_true, ↓reduceIte]
      exact ⟨by rw [hw]; exact hpw, by omega⟩
  | ledger c =>
    refine ⟨?_, by omega⟩
    rcases step_cases h with ⟨-, hch⟩ | ⟨-, hw⟩
    · rw [hc] at hch; generalize s'.world = w' at hch; cases hch; exact hpw
    · rw [hw]; exact hpw
  | registerService category unitHash quantity unitPrice endpointHash =>
    refine ⟨?_, by omega⟩
    rcases step_cases h with ⟨-, hch⟩ | ⟨-, hw⟩
    · rw [hc] at hch; generalize s'.world = w' at hch; cases hch; exact hpw
    · rw [hw]; exact hpw
  | token t =>
    refine ⟨?_, by omega⟩
    rcases step_cases h with ⟨-, hch⟩ | ⟨-, hw⟩
    · rw [hc] at hch; generalize s'.world = w' at hch; cases hch; exact hpw
    · rw [hw]; exact hpw

/-- **The market runs the policy.** -/
theorem policy_run {p : ObolosPolicyEnvelope.World} (h : (lts E T).Run s τ s')
    (hp : PolicyAt s p) :
    ∃ σ p', (ObolosPolicyEnvelope.lts E.keccak E.openZeppelin E.policy).Run p σ p' ∧
      PolicyAt s' p' ∧ σ.map Tr.lab = τ.filterMap fun e => policyTx E.settlement e.lab :=
  h.simulate (R := PolicyAt) (I := fun _ => True) hp trivial (fun _ _ _ _ _ => trivial)
    fun _ l _ _ _ hR hst => by
      have hs := policy_step hst hR
      simp only
      cases ho : policyTx E.settlement l <;> simpa [ho] using hs

theorem policyAt_init (t : T.Storage) : PolicyAt (init E t) ObolosPolicyEnvelope.World.init :=
  ⟨rfl, le_rfl⟩

/-! ### Executing a list of calls -/

section Play

variable (E)

/-- Perform one call. -/
def perform (s : State T) (x : Msg × Call Sig T) : Tr (State T) (Tx Sig T) :=
  match exec E x.1 s.world x.2 with
  | .ok w => ⟨s, ⟨x.1, x.2, true⟩, ⟨w, x.1.timestamp⟩⟩
  | .error _ => ⟨s, ⟨x.1, x.2, false⟩, ⟨s.world, x.1.timestamp⟩⟩

/-- The caller is none of the contracts, and the call does not come before the last block. -/
abbrev Admissible (s : State T) (x : Msg × Call Sig T) : Prop :=
  E.External x.1.sender ∧ s.now ≤ x.1.timestamp

variable {E}

theorem perform_step {x : Msg × Call Sig T} (h : Admissible E s x) :
    (perform E s x).pre = s ∧ (lts E T).step s (perform E s x).lab (perform E s x).post := by
  unfold perform
  cases he : exec E x.1 s.world x.2 with
  | ok w => exact ⟨rfl, h.1, h.2, rfl, by simp [he]⟩
  | error r => exact ⟨rfl, h.1, h.2, rfl, by simp [he]⟩

@[simp] theorem perform_call (x : Msg × Call Sig T) : (perform E s x).lab.call = x.2 := by
  unfold perform; split <;> rfl

@[simp] theorem perform_msg (x : Msg × Call Sig T) : (perform E s x).lab.msg = x.1 := by
  unfold perform; split <;> rfl

/-- Performing admissible calls is a run. -/
theorem play_run (s : State T) (cs : List (Msg × Call Sig T))
    (h : LTS.Playable (perform E) (Admissible E) s cs) :
    (lts E T).Run s (LTS.play (perform E) s cs).1 (LTS.play (perform E) s cs).2 :=
  LTS.Run.play (fun _ _ => perform_step) s cs h

/-- One more admissible call. -/
theorem perform_run {s₀ : State T} {x : Msg × Call Sig T} (h : (lts E T).Run s₀ τ s)
    (hx : Admissible E s x) :
    (lts E T).Run s₀ (τ ++ [perform E s x]) (perform E s x).post := by
  obtain ⟨hpre, hst⟩ := perform_step hx
  exact LTS.Run.snoc_iff.2 ⟨by rwa [hpre], by rwa [hpre], rfl⟩

end Play

/-! ### A small deployment -/

namespace Demo

open ObolosPolicyEnvelope.Demo (keccak openZeppelin params msg controller_ne controller_sender
  executor_sender seller_sender)

theorem attester_ne : (8 : Address) ≠ 0 := by decide

theorem self_ne : (7 : Address) ≠ 0 := by decide

theorem reserve_ne : (30 : Address) ≠ 0 := by decide

theorem reviewPool_ne : (31 : Address) ≠ 0 := by decide

/-- The contracts at `7`, `20` and `21`; the fees go to `30` and `31`. -/
def deployment : Deployment Bytes32 where
  keccak := keccak
  openZeppelin := openZeppelin
  policy := params
  ledger := ⟨1, 8, 1, 21, controller_ne, attester_ne⟩
  settlement := ⟨1, 7, 20, 21, 30, 31, self_ne, reserve_ne, reviewPool_ne⟩

instance decidableExternal (a : Address) : Decidable (deployment.External a) :=
  inferInstanceAs (Decidable (_ ∧ _))

/-- The payer `5` owns `1000` and allows the settlement contract `500` of it. -/
def tokens : ObolosMarketSettlement.Erc20 where
  balances a := if a = 5 then 1000 else 0
  allowances a b := if a = 5 ∧ b = 7 then 500 else 0

/-- The state right after the deployment. -/
abbrev start : State ObolosMarketSettlement.erc20 := init deployment tokens

/-- The hash of the one service: seller `6`, category `3`, five units at a price of twelve. -/
def service : Bytes32 :=
  ObolosMarketSettlement.serviceHash keccak deployment.settlement 6 3 40 5 12 41

/-- An order for the service. -/
def order (id : Bytes32) : Order :=
  ⟨id, 9, 3, 6, service, 40, 5, 12, 60, 42, 50, 3, 2, 1⟩

/-- Wiring, enrollment, the mandate and the service. -/
def setup : List (Msg × Call Bytes32 ObolosMarketSettlement.erc20) :=
  ObolosPolicyEnvelope.Demo.setup.map (fun x => (x.1, .policy x.2)) ++
    [(msg 0 1 controller_sender, .ledger (.wireSettlement 7)),
     (msg 5 1 seller_sender, .registerService 3 40 5 12 41)]

/-- A settlement, a rejected replay of it, the delivery and its acknowledgement. -/
def trade : List (Msg × Call Bytes32 ObolosMarketSettlement.erc20) :=
  [(msg 4 2 executor_sender, .settle (order 11)), (msg 4 2 executor_sender, .settle (order 11)),
   (msg 5 3 seller_sender, .ledger (.attestDelivery 11 43)),
   (msg 4 4 executor_sender, .ledger (.acknowledgeDelivery 11 43))]

/-- The state after the setup. -/
def ready : State ObolosMarketSettlement.erc20 := (LTS.play (perform deployment) start setup).2

/-- The first settlement of the trade. -/
def settlement : Tr (State ObolosMarketSettlement.erc20)
    (Tx Bytes32 ObolosMarketSettlement.erc20) :=
  perform deployment ready (msg 4 2 executor_sender, .settle (order 11))

/-- Calls performed on the small deployment. -/
abbrev run (s : State ObolosMarketSettlement.erc20)
    (cs : List (Msg × Call Bytes32 ObolosMarketSettlement.erc20)) :=
  LTS.play (perform deployment) s cs

theorem setup_run : (lts deployment _).Run start (run start setup).1 ready :=
  play_run start setup (by decide +kernel)

theorem settlement_call : settlement.lab.call = .settle (order 11) := by
  rw [settlement, perform_call]

theorem settlement_msg : settlement.lab.msg = msg 4 2 executor_sender := by
  rw [settlement, perform_msg]

theorem settlement_run :
    (lts deployment _).Run start ((run start setup).1 ++ [settlement]) settlement.post :=
  perform_run setup_run (by decide +kernel)

end Demo

end Market

end Obolos
