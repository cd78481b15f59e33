import Obolos.Contracts.Market

/-!
# What the version counters pin

A buyer reads the policy, and sends an order that names the versions it read.  Every setter of
`ObolosPolicyEnvelope` either leaves the data of a version alone or makes the version grow
(`terms_change`, `mandate_change`), so two states of one run with the same version agree on that
data (`terms_pinned`, `mandate_pinned`).

`versions_pinned` : a settlement applies exactly what the buyer read.
-/

namespace Obolos

namespace ObolosPolicyEnvelope

variable {Sig : Type} {K : Keccak} {Z : OpenZeppelin Sig} {P : Params} {m : Msg} {s s' : State}
  {c : Call Sig}

/-- The data under `policyVersion`. -/
structure Terms where
  marketEnabled : Bool
  reserveBps : ℕ
  reviewBps : ℕ
  feeVersion : ℕ
  executorOwners : Address → Address
  categories : ℕ → Category

/-- The terms in force. -/
def State.terms (s : State) : Terms :=
  ⟨s.marketEnabled, s.reserveBps, s.reviewBps, s.feeVersion, s.executorOwners, s.categories⟩

/-- The data under the version of an agent: its record except for what it spent, and its
sellers. -/
structure Mandate where
  agent : Agent
  counterparties : ℕ → Address → Bool

/-- The mandate of agent `id`. -/
def State.mandate (s : State) (id : Bytes32) : Mandate :=
  ⟨{ s.agents id with spent := 0 }, s.counterparties id⟩

/-- An agent that was never registered has version zero. -/
def Unversioned (s : State) : Prop := ∀ id, (s.agents id).owner = 0 → s.agentVersions id = 0

theorem unversioned_change (h : Unversioned s) (hc : Change K Z P m s c s') : Unversioned s' := by
  intro id
  cases hc with
  | registerAgent bound unowned executor_ne seconds =>
    simp only [Function.update_apply]
    split_ifs
    · exact fun h₀ => absurd h₀ m.sender_ne
    · exact h id
  | @setAgent id' _ _ _ _ _ owner bound executor_ne seconds cap =>
    simp only [Function.update_apply]
    split_ifs
    · exact fun h₀ => absurd (owner.trans h₀) m.sender_ne
    · exact h id
  | @setCounterparty id' _ _ _ owner seller_ne =>
    simp only [Function.update_apply]
    split_ifs with hid
    · subst hid; exact fun h₀ => absurd (owner.trans h₀) m.sender_ne
    · exact h id
  | @consume x _ _ permitted _ _ =>
    simp only [spend, Function.update_apply]
    split_ifs with hid
    · subst hid; exact h x.agentId
    · exact h id
  | _ => exact h id

/-- Every successful call makes the policy version grow or leaves the terms alone. -/
theorem terms_change (hc : Change K Z P m s c s') :
    s.policyVersion < s'.policyVersion ∨
      (s.policyVersion = s'.policyVersion ∧ s.terms = s'.terms) := by
  cases hc with
  | setCategory | setFees | resume | emergencyPause | bindExecutor =>
    exact Or.inl (Nat.lt_succ_self _)
  | _ => exact Or.inr ⟨rfl, rfl⟩

/-- Every successful call makes the version of an agent grow or leaves its mandate alone. -/
theorem mandate_change (h : Unversioned s) (hc : Change K Z P m s c s') (id : Bytes32) :
    s.agentVersions id < s'.agentVersions id ∨
      (s.agentVersions id = s'.agentVersions id ∧ s.mandate id = s'.mandate id) := by
  cases hc with
  | @registerAgent id' _ _ _ _ bound unowned executor_ne seconds =>
    by_cases hid : id = id'
    · -- A fresh registration starts at version one, above that of an agent without an owner.
      subst hid
      have h₀ : s.agentVersions id = 0 := h id unowned
      exact Or.inl (by simp [h₀])
    · exact Or.inr (by simp [State.mandate, Function.update_of_ne hid])
  | @setAgent id' _ _ _ _ _ owner bound executor_ne seconds cap =>
    by_cases hid : id = id'
    · subst hid; exact Or.inl (by simp)
    · exact Or.inr (by simp [State.mandate, Function.update_of_ne hid])
  | @setCounterparty id' _ _ _ owner seller_ne =>
    by_cases hid : id = id'
    · subst hid; exact Or.inl (by simp)
    · exact Or.inr (by simp [State.mandate, Function.update_of_ne hid])
  | @consume x _ _ permitted _ _ =>
    refine Or.inr ⟨rfl, ?_⟩
    by_cases hid : id = x.agentId
    · subst hid; simp [State.mandate, spend]
    · simp [State.mandate, spend, Function.update_of_ne hid]
  | _ => exact Or.inr ⟨rfl, rfl⟩

theorem feeVersion_change (hc : Change K Z P m s c s') : s.feeVersion ≤ s'.feeVersion := by
  cases hc with
  | setFees => exact Nat.le_succ _
  | _ => exact le_rfl

section Runs

variable {τ σ : List (Tr World (Tx Sig))} {w u v : World}

theorem unversioned_step {tx : Tx Sig} (h : Unversioned w.state)
    (hst : (lts K Z P).step w tx u) : Unversioned u.state := by
  rcases step_cases hst with ⟨-, hc⟩ | ⟨-, he⟩
  · exact unversioned_change h hc
  · rwa [he]

theorem unversioned_run (h : (lts K Z P).Run World.init τ w) : Unversioned w.state :=
  h.invariant (I := fun w => Unversioned w.state) (fun _ _ => rfl) fun _ _ _ => unversioned_step

theorem terms_pinned (h : (lts K Z P).Run u σ v) :
    u.state.policyVersion ≤ v.state.policyVersion ∧
      (u.state.policyVersion = v.state.policyVersion → u.state.terms = v.state.terms) := by
  refine h.pinned (I := fun _ => True) (v := fun w => w.state.policyVersion)
    (f := fun w => w.state.terms) trivial (fun _ _ _ _ _ => trivial) fun w tx w' _ hst => ?_
  rcases step_cases hst with ⟨-, hc⟩ | ⟨-, he⟩
  · exact terms_change hc
  · rw [he]; exact Or.inr ⟨rfl, rfl⟩

theorem mandate_pinned (h₀ : Unversioned u.state) (h : (lts K Z P).Run u σ v) (id : Bytes32) :
    u.state.agentVersions id ≤ v.state.agentVersions id ∧
      (u.state.agentVersions id = v.state.agentVersions id →
        u.state.mandate id = v.state.mandate id) := by
  refine h.pinned (I := fun w => Unversioned w.state) (v := fun w => w.state.agentVersions id)
    (f := fun w => w.state.mandate id) h₀ (fun _ _ _ => unversioned_step)
    fun w tx w' hI hst => ?_
  rcases step_cases hst with ⟨-, hc⟩ | ⟨-, he⟩
  · exact mandate_change hI hc id
  · rw [he]; exact Or.inr ⟨rfl, rfl⟩

theorem feeVersion_le (h : (lts K Z P).Run u σ v) : u.state.feeVersion ≤ v.state.feeVersion := by
  refine h.rel (I := fun _ => True) (R := fun u v => u.state.feeVersion ≤ v.state.feeVersion)
    trivial (fun _ _ _ _ _ => trivial) (fun _ => le_rfl) (fun _ _ _ => le_trans)
    fun w tx w' _ hst => ?_
  rcases step_cases hst with ⟨-, hc⟩ | ⟨-, he⟩
  · exact feeVersion_change hc
  · rw [he]

/-- Two states agree on everything the versions they share stand for. -/
def Agree (s t : State) : Prop :=
  s.policyVersion = t.policyVersion → s.terms = t.terms ∧
    ∀ id, s.agentVersions id = t.agentVersions id → s.mandate id = t.mandate id

theorem Agree.symm {s t : State} (h : Agree s t) : Agree t s := fun hv =>
  ⟨(h hv.symm).1.symm, fun id ha => ((h hv.symm).2 id ha.symm).symm⟩

theorem agree_of_run (h₀ : Unversioned u.state) (h : (lts K Z P).Run u σ v) :
    Agree u.state v.state := fun hv =>
  ⟨(terms_pinned h).2 hv, fun id ha => (mandate_pinned h₀ h id).2 ha⟩

theorem unversioned_of_mem (h : (lts K Z P).Run World.init τ w)
    (hu : u ∈ LTS.states World.init τ) : Unversioned u.state := by
  obtain ⟨_, _, -, h₁, -⟩ := h.cut hu
  exact unversioned_run h₁

theorem agree_of_mem (h : (lts K Z P).Run World.init τ w) (hu : u ∈ LTS.states World.init τ)
    (hv : v ∈ LTS.states World.init τ) : Agree u.state v.state := by
  rcases h.between hu hv with ⟨σ, huv⟩ | ⟨σ, hvu⟩
  · exact agree_of_run (unversioned_of_mem h hu) huv
  · exact (agree_of_run (unversioned_of_mem h hv) hvu).symm

end Runs

end ObolosPolicyEnvelope

namespace Market

open ObolosPolicyEnvelope (Agree)
open ObolosMarketSettlement (Token World Order Settled internal transferNonzero)

variable {Sig : Type} {T : Token} {E : Deployment Sig} {t₀ : T.Storage} {s u v : State T}
  {τ : List (Tr (State T) (Tx Sig T))}

/-- Two states a market run goes through agree on what their versions stand for. -/
theorem agree_of_mem (h : (lts E T).Run (init E t₀) τ s) (hu : u ∈ LTS.states (init E t₀) τ)
    (hv : v ∈ LTS.states (init E t₀) τ) : Agree u.world.policy v.world.policy := by
  have key : ∀ {u v : State T} {σ : List (Tr (State T) (Tx Sig T))},
      u ∈ LTS.states (init E t₀) τ → (lts E T).Run u σ v →
        Agree u.world.policy v.world.policy := by
    intro u v σ hu huv
    obtain ⟨_, _, -, h₁, -⟩ := h.cut hu
    -- The policy's own run up to `u`, and its own run from there to `v`.
    obtain ⟨_, p, hp, hpu, -⟩ := policy_run h₁ (policyAt_init t₀)
    obtain ⟨_, q, hq, hqv, -⟩ := policy_run huv hpu
    rw [← hpu.1, ← hqv.1]
    exact ObolosPolicyEnvelope.agree_of_run (ObolosPolicyEnvelope.unversioned_run hp) hq
  rcases h.between hu hv with ⟨_, huv⟩ | ⟨_, hvu⟩
  · exact key hu huv
  · exact (key hv hvu).symm

/-- A settlement that applied the terms and the mandate of the policy state `p`: its category
limits, its fees, its executor binding, and the mandate's caps and sellers. -/
structure SettledUnder (p : ObolosPolicyEnvelope.State) (D : ObolosMarketSettlement.Params)
    (m : Msg) (o : Order) (w w' : World T) : Prop where
  marketEnabled : p.marketEnabled = true
  feeVersion : o.feeVersion = p.feeVersion
  category : (p.categories o.category).enabled = true
  perOrder : o.amount ≤ (p.categories o.category).perOrderCap
  bound : p.executorOwners m.sender = (p.agents o.agentId).owner
  executor : m.sender = (p.agents o.agentId).executor
  active : (p.agents o.agentId).active = true
  seller : p.counterparties o.agentId o.category o.seller = true
  total : (w.policy.agents o.agentId).spent + o.amount ≤ (p.agents o.agentId).totalCap
  agentWindow : ObolosPolicyEnvelope.consumeWindow m.timestamp (w.policy.agentWindows o.agentId)
    o.amount (p.agents o.agentId).windowCap (p.agents o.agentId).windowSeconds
    (p.categories o.category).delaySeconds = .ok (w'.policy.agentWindows o.agentId)
  categoryWindow : ObolosPolicyEnvelope.consumeWindow m.timestamp
    (w.policy.categoryWindows o.category) o.amount (p.categories o.category).windowCap
    (p.categories o.category).windowSeconds (p.categories o.category).delaySeconds =
      .ok (w'.policy.categoryWindows o.category)
  paid : ∃ t₁ t₂,
    T.transferFrom D.self m.sender o.seller
      (o.amount - o.amount * p.reserveBps / 10000 - o.amount * p.reviewBps / 10000) w.token =
        .ok t₁ ∧
    transferNonzero D m.sender D.reserve (o.amount * p.reserveBps / 10000) t₁ = .ok t₂ ∧
    transferNonzero D m.sender D.reviewPool (o.amount * p.reviewBps / 10000) t₂ = .ok w'.token

/-- A settlement applies the terms and the mandate of the state it was made in, and therefore
those of any state that agrees with it. -/
theorem settledUnder_of_agree {K : Keccak} {D : ObolosMarketSettlement.Params} {m : Msg}
    {o : Order} {w w' : World T} {p : ObolosPolicyEnvelope.State} (h : Settled K D m o w w')
    (hterms : w.policy.terms = p.terms)
    (hmandate : w.policy.mandate o.agentId = p.mandate o.agentId) :
    SettledUnder p D m o w w' := by
  obtain ⟨hp, wa, wc, ha, hc, hw⟩ := ObolosPolicyEnvelope.consume_ok.1 h.consumed
  have hfees : w'.policy.reserveBps = p.reserveBps ∧ w'.policy.reviewBps = p.reviewBps := by
    rw [hw]
    exact ⟨congrArg ObolosPolicyEnvelope.Terms.reserveBps hterms,
      congrArg ObolosPolicyEnvelope.Terms.reviewBps hterms⟩
  have hpaid := h.paid
  rw [hfees.1, hfees.2] at hpaid
  have hfee := h.feeVersion
  have hwa : w'.policy.agentWindows o.agentId = wa := by
    simp [hw, ObolosPolicyEnvelope.spend, Order.spend]
  have hwc : w'.policy.categoryWindows o.category = wc := by
    simp [hw, ObolosPolicyEnvelope.spend, Order.spend]
  simp only [ObolosPolicyEnvelope.State.terms, ObolosPolicyEnvelope.Terms.mk.injEq] at hterms
  simp only [ObolosPolicyEnvelope.State.mandate, ObolosPolicyEnvelope.Mandate.mk.injEq,
    ObolosPolicyEnvelope.Agent.mk.injEq] at hmandate
  obtain ⟨h₁, -, -, h₄, h₅, h₆⟩ := hterms
  obtain ⟨⟨g₁, g₂, g₃, g₄, -, g₆, g₇⟩, g₈⟩ := hmandate
  simp only [Order.spend, internal] at hp ha hc
  refine ⟨h₁ ▸ hp.enabled, h₄ ▸ hfee, h₆ ▸ hp.category, h₆ ▸ hp.perOrder, ?_, g₂ ▸ hp.executor,
    g₃ ▸ hp.active, g₈ ▸ hp.seller, g₄ ▸ hp.total, ?_, ?_, hpaid⟩
  · rw [← h₅, ← g₁]; exact hp.bound
  · rw [hwa, ← g₆, ← g₇, ← h₆]; exact ha
  · rw [hwc, ← h₆]; exact hc

/-- **Version pinning.**  Of any two states of a run of the policy: with the same policy version
they have the same terms, and if moreover an agent has the same version, it has the same mandate;
no version counter ever decreases.  Hence a successful settlement applied exactly the limits,
fees, binding, caps and sellers of any state of the market run, earlier or later, that has the
versions the order names. -/
theorem versions_pinned {σ : List (Tr ObolosPolicyEnvelope.World (ObolosPolicyEnvelope.Tx Sig))}
    {w : ObolosPolicyEnvelope.World}
    (hp : (ObolosPolicyEnvelope.lts E.keccak E.openZeppelin E.policy).Run
      ObolosPolicyEnvelope.World.init σ w)
    (hm : (lts E T).Run (init E t₀) τ s) :
    (∀ u ∈ LTS.states ObolosPolicyEnvelope.World.init σ,
      ∀ v ∈ LTS.states ObolosPolicyEnvelope.World.init σ,
        u.state.policyVersion = v.state.policyVersion →
          u.state.terms = v.state.terms ∧
          ∀ id, u.state.agentVersions id = v.state.agentVersions id →
            u.state.mandate id = v.state.mandate id) ∧
    (∀ e ∈ σ, e.pre.state.policyVersion ≤ e.post.state.policyVersion ∧
      e.pre.state.feeVersion ≤ e.post.state.feeVersion ∧
      ∀ id, e.pre.state.agentVersions id ≤ e.post.state.agentVersions id) ∧
    ∀ e ∈ τ, ∀ o, e.lab.call = .settle o → e.lab.success = true →
      ∀ u ∈ LTS.states (init E t₀) τ, u.world.policy.policyVersion = o.policyVersion →
        u.world.policy.agentVersions o.agentId = o.agentVersion →
          SettledUnder u.world.policy E.settlement e.lab.msg o e.pre.world e.post.world ∧
          e.pre.world.policy.terms = u.world.policy.terms ∧
          e.pre.world.policy.mandate o.agentId = u.world.policy.mandate o.agentId := by
  refine ⟨fun u hu v hv => ObolosPolicyEnvelope.agree_of_mem hp hu hv, fun e he => ?_,
    fun e he o ho hs u hu hv ha => ?_⟩
  · have hstep : (ObolosPolicyEnvelope.lts E.keccak E.openZeppelin E.policy).Run e.pre
        [⟨e.pre, e.lab, e.post⟩] e.post := (LTS.Run.nil _).snoc (hp.step_of_mem he)
    have hpre := ObolosPolicyEnvelope.unversioned_of_mem hp (hp.pre_mem_states he)
    exact ⟨(ObolosPolicyEnvelope.terms_pinned hstep).1, ObolosPolicyEnvelope.feeVersion_le hstep,
      fun id => (ObolosPolicyEnvelope.mandate_pinned hpre hstep id).1⟩
  · have hset := settled_of_step (hm.step_of_mem he) ho hs
    obtain ⟨hperm, -⟩ := ObolosPolicyEnvelope.consume_ok.1 hset.consumed
    have hagree := agree_of_mem hm (hm.pre_mem_states he) hu (hperm.version.symm.trans hv.symm)
    have hterms := hagree.1
    have hmandate := hagree.2 o.agentId (hperm.agentVersion.symm.trans ha.symm)
    exact ⟨settledUnder_of_agree hset hterms hmandate, hterms, hmandate⟩

/-- The settlement of the small deployment applied the policy that holds after it. -/
theorem versions_pinned_settlement :
    SettledUnder Demo.settlement.post.world.policy Demo.deployment.settlement
      (ObolosPolicyEnvelope.Demo.msg 4 2 (by decide)) (Demo.order 11)
      Demo.settlement.pre.world Demo.settlement.post.world := by
  have hp := ObolosPolicyEnvelope.play_run (K := Demo.deployment.keccak)
    (Z := Demo.deployment.openZeppelin) (P := Demo.deployment.policy)
    ObolosPolicyEnvelope.World.init ObolosPolicyEnvelope.Demo.setup (by decide +kernel)
  have h := (versions_pinned hp Demo.settlement_run).2.2 Demo.settlement (by simp)
    (Demo.order 11) Demo.settlement_call (by decide +kernel) _ Demo.settlement_run.end_mem_states
    (by decide +kernel) (by decide +kernel)
  rw [Demo.settlement_msg] at h
  exact h.1

end Market

end Obolos
