import Obolos.Contracts.EconomicLedger
import Mathlib.Data.Set.Card

/-!
# The orders and the counters of `ObolosEconomicLedger`

`LedgerOk` is the invariant: an order that was never paid is blank, and the counters of every
seller are the numbers of its orders in each stage.  `ledgerOk_change` : every successful call
keeps it, as long as no payment names the zero seller.

The other lemmas say what may happen to one order: its payment data never changes, its output is
written once by the seller, and the payer acknowledges exactly that output.
-/

namespace Obolos

/-! ### Counting -/

section Count

variable {ι α : Type*} [DecidableEq ι] {Q : α → Prop} {f : ι → α} {i : ι} {v : α}

/-- Moving one point of a finite domain into a predicate adds one to the count. -/
theorem ncard_update_add_one [Finite ι] (h : ¬ Q (f i)) (hv : Q v) :
    {j | Q (Function.update f i v j)}.ncard = {j | Q (f j)}.ncard + 1 := by
  have hset : {j | Q (Function.update f i v j)} = insert i {j | Q (f j)} := by
    ext j
    by_cases hj : j = i
    · subst hj; simp [hv]
    · simp [hj]
  rw [hset, Set.ncard_insert_of_notMem (by simpa using h) (Set.toFinite _)]

/-- Changing one point without changing the predicate there leaves the count alone. -/
theorem ncard_update (h : Q (f i) ↔ Q v) :
    {j | Q (Function.update f i v j)}.ncard = {j | Q (f j)}.ncard := by
  congr 1
  ext j
  by_cases hj : j = i
  · subst hj; simp [h]
  · simp [hj]

end Count

instance finite_bytes32 : Finite Bytes32 :=
  Finite.of_injective BitVec.toFin fun _ _ h => BitVec.eq_of_toFin_eq h

namespace ObolosEconomicLedger

variable {K : Keccak} {L : Params} {m : Msg} {s s' : State} {c : Call}

/-! ### The counters -/

/-- An order paid to seller `a`. -/
def PaidTo (a : Address) (p : Paid) : Prop := p.seller = a ∧ p.seller ≠ 0

/-- An order of seller `a` with an attested output. -/
def DeliveredBy (a : Address) (p : Paid) : Prop := PaidTo a p ∧ p.outputHash ≠ 0

/-- An order of seller `a` whose delivery the payer acknowledged. -/
def AcknowledgedOf (a : Address) (p : Paid) : Prop := PaidTo a p ∧ p.acknowledged = true

/-- The invariant of the ledger. -/
structure LedgerOk (s : State) : Prop where
  blank : ∀ id, (s.orders id).seller = 0 → s.orders id = ⟨0, 0, 0, 0, 0, false⟩
  attested : ∀ id, (s.orders id).acknowledged = true → (s.orders id).outputHash ≠ 0
  paid : ∀ a, (s.reputation a).paid = {id | PaidTo a (s.orders id)}.ncard
  delivered : ∀ a, (s.reputation a).delivered = {id | DeliveredBy a (s.orders id)}.ncard
  acknowledged : ∀ a, (s.reputation a).acknowledged = {id | AcknowledgedOf a (s.orders id)}.ncard

theorem ledgerOk_init : LedgerOk (init L) where
  blank _ _ := rfl
  attested _ h := by simp [init] at h
  paid a := by simp [init, PaidTo]
  delivered a := by simp [init, DeliveredBy, PaidTo]
  acknowledged a := by simp [init, AcknowledgedOf, PaidTo]

section Counters

variable {r r' : Address → ℕ} {Q : Address → Paid → Prop} {orders : Bytes32 → Paid}
  {id : Bytes32} {p : Paid}

/-- A counter that is bumped for seller `b`, when one order of `b` enters the stage `Q`. -/
theorem count_bump (b : Address) (h : ∀ a, r a = {id | Q a (orders id)}.ncard)
    (hr : ∀ a, r' a = if a = b then r a + 1 else r a) (hbefore : ∀ a, ¬ Q a (orders id))
    (hafter : ∀ a, Q a p ↔ a = b) (a : Address) :
    r' a = {j | Q a (Function.update orders id p j)}.ncard := by
  rw [hr, h]
  split_ifs with ha
  · rw [ncard_update_add_one (hbefore a) ((hafter a).2 ha)]
  · rw [ncard_update (iff_of_false (hbefore a) fun hq => ha ((hafter a).1 hq))]

/-- A counter that stays, when no order enters or leaves the stage `Q`. -/
theorem count_same (h : ∀ a, r a = {id | Q a (orders id)}.ncard) (hr : ∀ a, r' a = r a)
    (hQ : ∀ a, Q a (orders id) ↔ Q a p) (a : Address) :
    r' a = {j | Q a (Function.update orders id p j)}.ncard := by
  rw [hr, h, ncard_update (hQ a)]

end Counters

/-- Every successful call keeps the ledger well formed, if no payment names the zero seller. -/
theorem ledgerOk_change (h : LedgerOk s) (hc : Change K L m s c s')
    (hpay : ∀ p, c = .recordPaid p → p.seller ≠ 0) : LedgerOk s' := by
  cases hc with
  | @recordPaid p sender fresh =>
    -- Only the count of paid orders of the seller grows.
    have hne := hpay p rfl
    refine ⟨fun id => ?_, fun id => ?_, count_bump p.seller h.paid (fun a => ?_) (fun a hq => hq.2 fresh)
      (fun a => ?_), count_same h.delivered (fun a => ?_) (fun a => ?_),
      count_same h.acknowledged (fun a => ?_) (fun a => ?_)⟩
    · simp only [Function.update_apply]
      split_ifs
      · exact fun h₀ => absurd h₀ hne
      · exact h.blank id
    · simp only [Function.update_apply]
      split_ifs
      · exact fun h₀ => absurd h₀ (by simp)
      · exact h.attested id
    · by_cases ha : a = p.seller <;> simp [ha]
    · exact ⟨fun hq => hq.1.symm, fun ha => ⟨ha.symm, hne⟩⟩
    · by_cases ha : a = p.seller <;> simp [ha]
    · exact iff_of_false (fun hq => hq.1.2 fresh) fun hq => hq.2 rfl
    · by_cases ha : a = p.seller <;> simp [ha]
    · exact iff_of_false (fun hq => hq.1.2 fresh) fun hq => absurd hq.2 (by simp)
  | @attestDelivery id' outputHash sender output_ne fresh =>
    -- Only the count of delivered orders grows.
    have hne : (s.orders id').seller ≠ 0 := sender ▸ m.sender_ne
    refine ⟨fun id => ?_, fun id => ?_, count_same h.paid (fun a => ?_) (fun a => Iff.rfl),
      count_bump (s.orders id').seller h.delivered (fun a => ?_) (fun a hq => hq.2 fresh) (fun a => ?_),
      count_same h.acknowledged (fun a => ?_) (fun a => Iff.rfl)⟩
    · simp only [Function.update_apply]
      split_ifs
      · exact fun h₀ => absurd h₀ hne
      · exact h.blank id
    · simp only [Function.update_apply]
      split_ifs
      · exact fun _ => output_ne
      · exact h.attested id
    · by_cases ha : a = (s.orders id').seller <;> simp [ha]
    · by_cases ha : a = (s.orders id').seller <;> simp [ha]
    · exact ⟨fun hq => hq.1.1.symm, fun ha => ⟨⟨ha.symm, hne⟩, output_ne⟩⟩
    · by_cases ha : a = (s.orders id').seller <;> simp [ha]
  | @acknowledgeDelivery id' outputHash sender output_ne attested fresh =>
    -- Only the count of acknowledged orders grows; a blank order has no payer who could call.
    have hne : (s.orders id').seller ≠ 0 := fun h₀ => by
      have hp : (s.orders id').payer = 0 := by rw [h.blank id' h₀]
      exact m.sender_ne (sender.trans hp)
    refine ⟨fun id => ?_, fun id => ?_, count_same h.paid (fun a => ?_) (fun a => Iff.rfl),
      count_same h.delivered (fun a => ?_) (fun a => Iff.rfl),
      count_bump (s.orders id').seller h.acknowledged (fun a => ?_)
        (fun a hq => Bool.false_ne_true (fresh.symm.trans hq.2)) (fun a => ?_)⟩
    · simp only [Function.update_apply]
      split_ifs
      · exact fun h₀ => absurd h₀ hne
      · exact h.blank id
    · simp only [Function.update_apply]
      split_ifs
      · exact fun _ => attested ▸ output_ne
      · exact h.attested id
    · by_cases ha : a = (s.orders id').seller <;> simp [ha]
    · by_cases ha : a = (s.orders id').seller <;> simp [ha]
    · by_cases ha : a = (s.orders id').seller <;> simp [ha]
    · exact ⟨fun hq => hq.1.1.symm, fun ha => ⟨⟨ha.symm, hne⟩, rfl⟩⟩
  | _ => exact ⟨h.blank, h.attested, h.paid, h.delivered, h.acknowledged⟩

/-- Acknowledged orders are delivered, and delivered orders are paid. -/
theorem LedgerOk.counts_le (h : LedgerOk s) (a : Address) :
    (s.reputation a).acknowledged ≤ (s.reputation a).delivered ∧
      (s.reputation a).delivered ≤ (s.reputation a).paid := by
  rw [h.paid, h.delivered, h.acknowledged]
  exact ⟨Set.ncard_le_ncard (fun id hq => ⟨hq.1, h.attested id hq.2⟩) (Set.toFinite _),
    Set.ncard_le_ncard (fun id hq => hq.1) (Set.toFinite _)⟩

/-! ### One order -/

/-- The part of an order that the payment fixes. -/
def Paid.terms (p : Paid) : Address × Address × Bytes32 × Bytes32 :=
  (p.payer, p.seller, p.serviceHash, p.inputHash)

/-- The settlement contract is wired once. -/
theorem settlement_change (hc : Change K L m s c s') (h : s.settlement ≠ 0) :
    s'.settlement = s.settlement := by
  cases hc with
  | wireSettlement sender unwired code => exact absurd unwired h
  | _ => rfl

/-- Only a payment fixes the terms of an order, and only those of a new one. -/
theorem terms_change (hc : Change K L m s c s') (id : Bytes32) :
    (s'.orders id).terms = (s.orders id).terms ∨
      ((s.orders id).seller = 0 ∧ ∃ p, c = .recordPaid p ∧ p.orderId = id) := by
  cases hc with
  | @recordPaid p sender fresh =>
    by_cases hid : id = p.orderId
    · subst hid; exact Or.inr ⟨fresh, p, rfl, rfl⟩
    · left; simp [hid]
  | attestDelivery | acknowledgeDelivery =>
    left; simp only [Function.update_apply]; split_ifs with hid
    · subst hid; rfl
    · rfl
  | _ => exact Or.inl rfl

/-- The output of an order changes only from nothing to what its seller attests. -/
theorem output_change (hok : LedgerOk s) (hc : Change K L m s c s') (id : Bytes32) :
    (s'.orders id).outputHash = (s.orders id).outputHash ∨
      ((s.orders id).outputHash = 0 ∧ (s'.orders id).outputHash ≠ 0 ∧
        m.sender = (s.orders id).seller ∧
        c = .attestDelivery id (s'.orders id).outputHash) := by
  cases hc with
  | @recordPaid p sender fresh =>
    left
    by_cases hid : id = p.orderId
    · subst hid; simp [hok.blank _ fresh]
    · simp [hid]
  | @attestDelivery id' outputHash sender output_ne fresh =>
    by_cases hid : id = id'
    · subst hid; right; simpa using ⟨fresh, output_ne, sender⟩
    · left; simp [hid]
  | @acknowledgeDelivery id' outputHash sender output_ne attested fresh =>
    left
    by_cases hid : id = id'
    · subst hid; simp
    · simp [hid]
  | _ => exact Or.inl rfl

/-- An order becomes acknowledged only by its payer naming the output the seller attested. -/
theorem acknowledged_change (hok : LedgerOk s) (hc : Change K L m s c s') (id : Bytes32) :
    (s'.orders id).acknowledged = (s.orders id).acknowledged ∨
      ((s.orders id).acknowledged = false ∧ (s'.orders id).acknowledged = true ∧
        m.sender = (s.orders id).payer ∧ (s.orders id).outputHash ≠ 0 ∧
        (s'.orders id).outputHash = (s.orders id).outputHash ∧
        c = .acknowledgeDelivery id (s.orders id).outputHash) := by
  cases hc with
  | @recordPaid p sender fresh =>
    left
    by_cases hid : id = p.orderId
    · subst hid; simp [hok.blank _ fresh]
    · simp [hid]
  | @attestDelivery id' outputHash sender output_ne fresh =>
    left
    by_cases hid : id = id'
    · subst hid; simp
    · simp [hid]
  | @acknowledgeDelivery id' outputHash sender output_ne attested fresh =>
    by_cases hid : id = id'
    · subst hid; right; simpa [attested] using ⟨fresh, sender, output_ne⟩
    · left; simp [hid]
  | _ => exact Or.inl rfl

end ObolosEconomicLedger

end Obolos
