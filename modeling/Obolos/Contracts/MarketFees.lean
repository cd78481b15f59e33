import Obolos.Contracts.Market
import Mathlib.Algebra.Order.Ring.Nat

/-!
# Fees and conservation of a settlement

The fee setters keep the two fees together under ten percent (`feesOk_change`), so the split of
an amount into the seller's part and the two rounded-down fees never underflows
(`fees_le_amount`) and leaves the seller nine tenths (`seller_part_ge`).

`settle_conserves` : what every settlement of a market run moves, whom it pays, and that a
settlement of which any step fails changes nothing.
-/

namespace Obolos

namespace Market

open ObolosMarketSettlement (Token World Order Settled internal transferNonzero serviceHash)

variable {Sig : Type} {T : Token} {E : Deployment Sig} {m : Msg} {w w' : World T}
  {c : Call Sig T}

/-! ### The fees of the policy -/

/-- The fees are within their limit. -/
def FeesOk (p : ObolosPolicyEnvelope.State) : Prop :=
  p.reserveBps + p.reviewBps ≤ ObolosPolicyEnvelope.MAX_FEE_BPS

theorem feesOk_policy {K : Keccak} {Z : OpenZeppelin Sig} {P : ObolosPolicyEnvelope.Params}
    {p p' : ObolosPolicyEnvelope.State} {c : ObolosPolicyEnvelope.Call Sig} (h : FeesOk p)
    (hc : ObolosPolicyEnvelope.Change K Z P m p c p') : FeesOk p' := by
  cases hc with
  | setFees bound approved => exact bound
  | _ => exact h

/-- The policy a settlement leaves is one `consume` away from the one it found. -/
theorem policy_of_settled {o : Order} (h : Settled E.keccak E.settlement m o w w') :
    ∃ wa wc, w'.policy = ObolosPolicyEnvelope.spend (o.spend m.sender) wa wc w.policy := by
  obtain ⟨-, wa, wc, -, -, hw⟩ := ObolosPolicyEnvelope.consume_ok.1 h.consumed
  exact ⟨wa, wc, hw⟩

theorem feesOk_change (h : FeesOk w.policy) (hc : Change E m w c w') : FeesOk w'.policy := by
  cases hc with
  | policy exec => exact feesOk_policy h (ObolosPolicyEnvelope.change_of_exec exec)
  | settle settled =>
    obtain ⟨wa, wc, hw⟩ := policy_of_settled settled
    rw [hw]
    exact h
  | _ => exact h

section Split

variable {amount a b : ℕ}

/-- Ten times the two fees is at most the amount. -/
theorem ten_mul_fees_le (h : a + b ≤ ObolosPolicyEnvelope.MAX_FEE_BPS) :
    10 * (amount * a / 10000 + amount * b / 10000) ≤ amount := by
  have ha : amount * a / 10000 * 10000 ≤ amount * a := Nat.div_mul_le_self _ _
  have hb : amount * b / 10000 * 10000 ≤ amount * b := Nat.div_mul_le_self _ _
  have hab : amount * a + amount * b ≤ amount * 1000 := by
    rw [← Nat.mul_add]; exact Nat.mul_le_mul_left amount h
  omega

theorem fees_le_amount (h : a + b ≤ ObolosPolicyEnvelope.MAX_FEE_BPS) :
    amount * a / 10000 + amount * b / 10000 ≤ amount := by
  have hten : 10 * (amount * a / 10000 + amount * b / 10000) ≤ amount := ten_mul_fees_le h
  omega

theorem seller_part_ge (h : a + b ≤ ObolosPolicyEnvelope.MAX_FEE_BPS) :
    9 * amount ≤ 10 * (amount - amount * a / 10000 - amount * b / 10000) := by
  have hten : 10 * (amount * a / 10000 + amount * b / 10000) ≤ amount := ten_mul_fees_le h
  omega

end Split

/-- `o.amount * reserveBps / 10000` -/
def reservePart (p : ObolosPolicyEnvelope.State) (amount : ℕ) : ℕ := amount * p.reserveBps / 10000

/-- `o.amount * reviewBps / 10000` -/
def reviewPart (p : ObolosPolicyEnvelope.State) (amount : ℕ) : ℕ := amount * p.reviewBps / 10000

/-- `o.amount - r - v` -/
def sellerPart (p : ObolosPolicyEnvelope.State) (amount : ℕ) : ℕ :=
  amount - reservePart p amount - reviewPart p amount

/-- The three parts of an amount, under fees within their limit. -/
theorem parts_of_feesOk {p : ObolosPolicyEnvelope.State} (h : FeesOk p) (amount : ℕ) :
    reservePart p amount + reviewPart p amount ≤ amount ∧
      sellerPart p amount + reservePart p amount + reviewPart p amount = amount ∧
      9 * amount ≤ 10 * sellerPart p amount := by
  have hle : reservePart p amount + reviewPart p amount ≤ amount := fees_le_amount h
  refine ⟨hle, ?_, seller_part_ge h⟩
  unfold sellerPart
  omega

/-! ### Transfers -/

/-- A transfer leaves the balance of a third party alone. -/
theorem balance_transferFrom (hT : T.Standard) {spender sender recipient x : Address}
    {value : ℕ} {t t' : T.Storage} (h : T.transferFrom spender sender recipient value t = .ok t')
    (hs : x ≠ sender) (hr : x ≠ recipient) : T.balanceOf t' x = T.balanceOf t x := by
  rw [(hT.transferred h).2, ObolosMarketSettlement.move_of_ne hs hr]

theorem balance_transferNonzero (hT : T.Standard) {D : ObolosMarketSettlement.Params}
    {payer recipient x : Address} {value : ℕ} {t t' : T.Storage}
    (h : transferNonzero D payer recipient value t = .ok t') (hs : x ≠ payer)
    (hr : x ≠ recipient) : T.balanceOf t' x = T.balanceOf t x := by
  unfold transferNonzero at h
  split_ifs at h with h₀
  · exact balance_transferFrom hT h hs hr
  · obtain rfl : t = t' := by simpa using h
    rfl

/-- The transfers of a settlement, in terms of the policy it found. -/
theorem transfers_of_settled {o : Order} (h : Settled E.keccak E.settlement m o w w') :
    ∃ t₁ t₂,
      T.transferFrom E.settlement.self m.sender o.seller (sellerPart w.policy o.amount) w.token =
        .ok t₁ ∧
      transferNonzero E.settlement m.sender E.settlement.reserve (reservePart w.policy o.amount)
        t₁ = .ok t₂ ∧
      transferNonzero E.settlement m.sender E.settlement.reviewPool
        (reviewPart w.policy o.amount) t₂ = .ok w'.token := by
  obtain ⟨wa, wc, hw⟩ := policy_of_settled h
  have hpaid := h.paid
  rw [hw] at hpaid
  exact hpaid

/-- A call the settlement makes fails: the debit, one of the transfers, or the record. -/
inductive StepFails (E : Deployment Sig) (m : Msg) (o : Order) (w : World T) : Prop
  | consume {r : Revert}
      (h : ObolosPolicyEnvelope.consume (internal E.settlement m) (o.spend m.sender) w.policy =
        .error r)
  | seller {r : Revert}
      (h : T.transferFrom E.settlement.self m.sender o.seller (sellerPart w.policy o.amount)
        w.token = .error r)
  | reserve {t₁ : T.Storage} {r : Revert}
      (h₁ : T.transferFrom E.settlement.self m.sender o.seller (sellerPart w.policy o.amount)
        w.token = .ok t₁)
      (h : transferNonzero E.settlement m.sender E.settlement.reserve
        (reservePart w.policy o.amount) t₁ = .error r)
  | reviewPool {t₁ t₂ : T.Storage} {r : Revert}
      (h₁ : T.transferFrom E.settlement.self m.sender o.seller (sellerPart w.policy o.amount)
        w.token = .ok t₁)
      (h₂ : transferNonzero E.settlement m.sender E.settlement.reserve
        (reservePart w.policy o.amount) t₁ = .ok t₂)
      (h : transferNonzero E.settlement m.sender E.settlement.reviewPool
        (reviewPart w.policy o.amount) t₂ = .error r)
  | recordPaid {r : Revert}
      (h : ObolosEconomicLedger.recordPaid (internal E.settlement m) (o.payment m.sender)
        w.ledger = .error r)

theorem not_settled_of_stepFails {o : Order} (hf : StepFails E m o w) :
    ¬ Settled E.keccak E.settlement m o w w' := by
  intro h
  obtain ⟨t₁, t₂, h₁, h₂, h₃⟩ := transfers_of_settled h
  cases hf with
  | consume hr => rw [h.consumed] at hr; cases hr
  | seller hr => rw [h₁] at hr; cases hr
  | reserve g₁ hr =>
    rw [h₁] at g₁
    cases g₁
    rw [h₂] at hr; cases hr
  | reviewPool g₁ g₂ hr =>
    rw [h₁] at g₁
    cases g₁
    rw [h₂] at g₂
    cases g₂
    rw [h₃] at hr; cases hr
  | recordPaid hr => rw [h.recorded] at hr; cases hr

/-- A settlement between other accounts leaves a balance alone. -/
theorem balance_of_settled (hT : T.Standard) {o : Order} {x : Address}
    (h : Settled E.keccak E.settlement m o w w') (hpayer : x ≠ m.sender) (hseller : x ≠ o.seller)
    (hreserve : x ≠ E.settlement.reserve) (hreview : x ≠ E.settlement.reviewPool) :
    T.balanceOf w'.token x = T.balanceOf w.token x := by
  obtain ⟨t₁, t₂, h₁, h₂, h₃⟩ := h.paid
  rw [balance_transferNonzero hT h₃ hpayer hreview, balance_transferNonzero hT h₂ hpayer hreserve,
    balance_transferFrom hT h₁ hpayer hseller]

/-! ### Registered services -/

variable {t₀ : T.Storage} {s : State T} {τ : List (Tr (State T) (Tx Sig T))}

/-- The transition registered the service under hash `h`. -/
def Registers (E : Deployment Sig) (h : Bytes32) (x : ObolosMarketSettlement.Service)
    (e : Tr (State T) (Tx Sig T)) : Prop :=
  e.lab.success = true ∧ e.lab.msg.sender = x.seller ∧
    e.lab.call = .registerService x.category x.unitHash x.quantity x.unitPrice x.endpointHash ∧
    h = serviceHash E.keccak E.settlement x.seller x.category x.unitHash x.quantity x.unitPrice
      x.endpointHash

/-- Every service with a seller was registered by that seller, with exactly its fields. -/
theorem registered (h : (lts E T).Run (init E t₀) τ s) (id : Bytes32)
    (hid : (s.world.settlement.services id).seller ≠ 0) :
    ∃ e ∈ τ, Registers E id (s.world.settlement.services id) e := by
  induction h with
  | nil => exact absurd rfl hid
  | @snoc t v τ tx h hst ih =>
    have hearlier : v.world.settlement.services id = t.world.settlement.services id →
        ∃ e ∈ τ ++ [⟨t, tx, v⟩], Registers E id (v.world.settlement.services id) e := by
      intro he
      rw [he] at hid ⊢
      obtain ⟨e, hmem, hreg⟩ := ih hid
      exact ⟨e, by simp [hmem], hreg⟩
    rcases step_cases hst with ⟨hs, hc⟩ | ⟨-, he⟩
    · generalize hcall : tx.call = c at hc
      generalize v.world = w' at hc hid hearlier ⊢
      cases hc with
      | registerService registered =>
        obtain ⟨-, -, rfl⟩ := ObolosMarketSettlement.registerService_ok.1 registered
        simp only [Function.update_apply] at hearlier ⊢
        split_ifs at hearlier ⊢ with hhash
        · exact ⟨⟨t, tx, v⟩, by simp, hs, rfl, hcall, hhash⟩
        · exact hearlier rfl
      | settle settled => exact hearlier (by rw [settled.marked])
      | _ => exact hearlier rfl
    · exact hearlier (by rw [he])

/-- A service that has been registered is stored under its hash. -/
theorem stored_of_registers (h : (lts E T).Run (init E t₀) τ s) {id : Bytes32}
    {x : ObolosMarketSettlement.Service} {e : Tr (State T) (Tx Sig T)} (he : e ∈ τ)
    (hreg : Registers E id x e) : s.world.settlement.services id = x ∧ x.seller ≠ 0 := by
  obtain ⟨hs, hsender, hcall, hid⟩ := hreg
  have hne : x.seller ≠ 0 := hsender ▸ e.lab.msg.sender_ne
  refine ⟨?_, hne⟩
  obtain ⟨τ₁, τ₂, rfl⟩ := List.append_of_mem he
  obtain ⟨-, hst, h₂⟩ := h.split_at
  refine h₂.invariant (I := fun s => s.world.settlement.services id = x) ?_ ?_
  · rcases step_cases hst with ⟨-, hc⟩ | ⟨hf, -⟩
    · rw [hcall] at hc
      generalize e.post.world = w at hc ⊢
      cases hc with
      | registerService registered =>
        obtain ⟨-, -, rfl⟩ := ObolosMarketSettlement.registerService_ok.1 registered
        rw [hid, hsender]
        simp
    · rw [hs] at hf; cases hf
  · intro u tx v hI hst
    rcases step_cases hst with ⟨-, hc⟩ | ⟨-, he⟩
    · generalize tx.call = c at hc
      generalize v.world = w at hc ⊢
      cases hc with
      | registerService registered =>
        obtain ⟨-, hfresh, rfl⟩ := ObolosMarketSettlement.registerService_ok.1 registered
        -- The hash is taken, so this is another one.
        show Function.update _ _ _ _ = _
        rw [Function.update_of_ne ?_, hI]
        rintro rfl
        rw [hI] at hfresh
        exact hne hfresh
      | settle settled => rw [settled.marked]; exact hI
      | _ => exact hI
    · rw [he]; exact hI

theorem feesOk_run (h : (lts E T).Run (init E t₀) τ s) : FeesOk s.world.policy :=
  run_invariant (I := fun w => FeesOk w.policy) h
    (show 300 + 200 ≤ ObolosPolicyEnvelope.MAX_FEE_BPS by decide) fun _ _ _ _ _ hI hc =>
    feesOk_change hI hc

/-- **Conservation.**  In every state of the market the two fees of any amount leave room for
the seller's part.  Every successful settlement of a run splits `quantity * unitPrice` exactly
into the three transfers, gives the seller at least nine tenths, leaves the balance of the
settlement contract alone, and pays the registrant of the service at the registered price.  A
settlement of which any step fails changes nothing at all. -/
theorem settle_conserves (hT : T.Standard) (h : (lts E T).Run (init E t₀) τ s) :
    (∀ amount, reservePart s.world.policy amount + reviewPart s.world.policy amount ≤ amount) ∧
    (∀ σ₁ e σ₂ o, τ = σ₁ ++ e :: σ₂ → e.lab.call = .settle o → e.lab.success = true →
      (∃ t₁ t₂,
        T.transferFrom E.settlement.self e.lab.msg.sender o.seller
          (sellerPart e.pre.world.policy o.amount) e.pre.world.token = .ok t₁ ∧
        transferNonzero E.settlement e.lab.msg.sender E.settlement.reserve
          (reservePart e.pre.world.policy o.amount) t₁ = .ok t₂ ∧
        transferNonzero E.settlement e.lab.msg.sender E.settlement.reviewPool
          (reviewPart e.pre.world.policy o.amount) t₂ = .ok e.post.world.token) ∧
      (sellerPart e.pre.world.policy o.amount + reservePart e.pre.world.policy o.amount +
        reviewPart e.pre.world.policy o.amount = o.amount) ∧
      o.amount = o.quantity * o.unitPrice ∧ o.quantity * o.unitPrice < 2 ^ 256 ∧
      9 * o.amount ≤ 10 * sellerPart e.pre.world.policy o.amount ∧
      (E.settlement.reserve ≠ E.settlement.self → E.settlement.reviewPool ≠ E.settlement.self →
        T.balanceOf e.post.world.token E.settlement.self =
          T.balanceOf e.pre.world.token E.settlement.self) ∧
      ∃ x : ObolosMarketSettlement.Service, x.seller = o.seller ∧ x.category = o.category ∧
        x.unitHash = o.unitHash ∧ x.quantity = o.quantity ∧ x.unitPrice = o.unitPrice ∧
        ∃ e' ∈ σ₁, Registers E o.serviceHash x e') ∧
    ∀ e ∈ τ, ∀ o, e.lab.call = .settle o →
      (StepFails E e.lab.msg o e.pre.world → e.lab.success = false) ∧
      (e.lab.success = false → e.post.world = e.pre.world) := by
  refine ⟨fun amount => (parts_of_feesOk (feesOk_run h) amount).1, ?_, fun e he o ho => ⟨?_, ?_⟩⟩
  · rintro σ₁ e σ₂ o rfl ho hs
    obtain ⟨h₁, hst, -⟩ := h.split_at
    have hset := settled_of_step hst ho hs
    obtain ⟨-, hsum, hge⟩ := parts_of_feesOk (feesOk_run h₁) o.amount
    have hservice := hset.service
    simp only [ObolosMarketSettlement.serviceMismatch, not_or, not_not] at hservice
    obtain ⟨-, hne, hseller, hcategory, hunit, hquantity, hprice⟩ := hservice
    obtain ⟨e', he', hreg⟩ := registered h₁ o.serviceHash hne
    -- The seller called `registerService`, so it is not the settlement contract.
    have hself : E.settlement.self ≠ o.seller := by
      rw [hseller, ← hreg.2.1]
      exact (step_external (h₁.step_of_mem he')).1.symm
    refine ⟨transfers_of_settled hset, hsum, hset.amount, hset.word, hge,
      fun hreserve hreview => ?_, _, hseller.symm, hcategory.symm, hunit.symm, hquantity.symm,
      hprice.symm, e', he', hreg⟩
    exact balance_of_settled hT hset (step_external hst).1.symm hself hreserve.symm hreview.symm
  · intro hf
    by_contra hs
    exact not_settled_of_stepFails hf
      (settled_of_step (h.step_of_mem he) ho (Bool.not_eq_false _ ▸ hs))
  · intro hs
    rcases step_cases (h.step_of_mem he) with ⟨hs', -⟩ | ⟨-, hw⟩
    · rw [hs] at hs'; cases hs'
    · exact hw

/-- The settlement of the small deployment: of sixty units the seller gets at least fifty-four,
and the settlement contract none. -/
theorem settle_conserves_settlement :
    9 * 60 ≤ 10 * sellerPart Demo.settlement.pre.world.policy 60 ∧
    ObolosMarketSettlement.erc20.balanceOf Demo.settlement.post.world.token
        Demo.deployment.settlement.self =
      ObolosMarketSettlement.erc20.balanceOf Demo.settlement.pre.world.token
        Demo.deployment.settlement.self := by
  have h := (settle_conserves ObolosMarketSettlement.erc20_standard Demo.settlement_run).2.1
    _ Demo.settlement [] (Demo.order 11) rfl Demo.settlement_call (by decide +kernel)
  obtain ⟨-, -, -, -, hge, hbalance, -⟩ := h
  have hamount : (Demo.order 11).amount = 60 := rfl
  rw [hamount] at hge
  exact ⟨hge, hbalance (by decide) (by decide)⟩

end Market

end Obolos
