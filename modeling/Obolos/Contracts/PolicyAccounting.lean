import Obolos.Contracts.PolicySteps
import Mathlib.Algebra.GroupWithZero.Nat
import Mathlib.Algebra.Order.BigOperators.Group.List
import Mathlib.Algebra.BigOperators.Group.List.Basic
import Mathlib.Data.List.Nodup

/-!
# Accounting of `ObolosPolicyEnvelope`

`AgentOk` is the invariant of a mandate; it survives re-registration attempts, cap changes and
executor rotation (`agentOk_change`).  From it, `accounting`: in every reachable state the `spent`
field of an agent is the exact sum of its successful spends and stays under the cap, every order
id was consumed at most once, and every successful spend passed all the guards.
-/

namespace Obolos

namespace ObolosPolicyEnvelope

variable {Sig : Type} {K : Keccak} {Z : OpenZeppelin Sig} {P : Params} {m : Msg} {s s' : State}
  {c : Call Sig}

/-- What holds of every agent record: one without an owner was never registered. -/
structure AgentOk (a : Agent) : Prop where
  inactive : a.owner = 0 → a.active = false
  unspent : a.owner = 0 → a.spent = 0
  capped : a.spent ≤ a.totalCap
  seconds : a.active = true → a.windowSeconds ≠ 0

theorem agentOk_init (id : Bytes32) : AgentOk (init.agents id) :=
  ⟨fun _ => rfl, fun _ => rfl, le_rfl, fun h => by simp [init] at h⟩

/-- Every successful call keeps every mandate well formed. -/
theorem agentOk_change (h : ∀ id, AgentOk (s.agents id)) (hc : Change K Z P m s c s')
    (id : Bytes32) : AgentOk (s'.agents id) := by
  cases hc with
  | registerAgent bound unowned executor_ne seconds =>
    simp only [Function.update_apply]
    split_ifs
    · exact ⟨fun h₀ => absurd h₀ m.sender_ne, fun _ => rfl, Nat.zero_le _, fun _ => seconds⟩
    · exact h id
  | @setAgent id' _ _ _ _ _ owner bound executor_ne seconds cap =>
    simp only [Function.update_apply]
    split_ifs
    · have hne : (s.agents id').owner ≠ 0 := owner ▸ m.sender_ne
      exact ⟨fun h₀ => absurd h₀ hne, fun h₀ => absurd h₀ hne, cap, fun _ => seconds⟩
    · exact h id
  | @consume x _ _ permitted _ _ =>
    simp only [spend, Function.update_apply]
    split_ifs
    · have ha := h x.agentId
      have hne : (s.agents x.agentId).owner ≠ 0 := fun h₀ => by
        have := ha.inactive h₀
        rw [permitted.active] at this; cases this
      exact ⟨ha.inactive, fun h₀ => absurd h₀ hne, permitted.total, ha.seconds⟩
    · exact h id
  | _ => exact h id

/-- Every mandate is well formed in every reachable state. -/
theorem agentOk_run {τ : List (Tr World (Tx Sig))} {w : World}
    (h : (lts K Z P).Run World.init τ w) : ∀ id, AgentOk (w.state.agents id) :=
  run_invariant (I := fun s => ∀ id, AgentOk (s.agents id)) h agentOk_init
    fun _ _ _ _ hI hc => agentOk_change hI hc

/-- What a call spends of agent `id`. -/
def Call.amountOf (id : Bytes32) : Call Sig → ℕ
  | .consume x => if x.agentId = id then x.amount else 0
  | _ => 0

/-- A successful call adds exactly what it spends: registration cannot reset a spent mandate. -/
theorem spent_change (h : ∀ id, AgentOk (s.agents id)) (hc : Change K Z P m s c s')
    (id : Bytes32) : (s'.agents id).spent = (s.agents id).spent + c.amountOf id := by
  cases hc with
  | @registerAgent id' _ _ _ _ bound unowned executor_ne seconds =>
    simp only [Function.update_apply, Call.amountOf]
    split_ifs with hid
    · subst hid; simp [(h id).unspent unowned]
    · rfl
  | setAgent owner bound executor_ne seconds cap =>
    simp only [Function.update_apply, Call.amountOf]
    split_ifs with hid
    · subst hid; rfl
    · rfl
  | @consume x _ _ permitted _ _ =>
    simp only [spend, Function.update_apply, Call.amountOf]
    by_cases hid : id = x.agentId
    · subst hid; simp
    · simp [hid, Ne.symm hid]
  | _ => simp [Call.amountOf]

/-- A call consumes order `o`. -/
def Call.Consumes (o : Bytes32) : Call Sig → Prop
  | .consume x => x.orderId = o
  | _ => False

/-- The order markers record exactly the successful `consume` calls. -/
theorem consumed_change (hc : Change K Z P m s c s') (o : Bytes32) :
    s'.consumed o = true ↔ s.consumed o = true ∨ c.Consumes o := by
  cases hc with
  | @consume x _ _ permitted _ _ =>
    simp only [spend, Function.update_apply, Call.Consumes]
    by_cases ho : o = x.orderId
    · subst ho; simp
    · simp [ho, Ne.symm ho]
  | _ => simp [Call.Consumes]

section Runs

variable {τ : List (Tr World (Tx Sig))} {w : World}

theorem amountOf_eq {tx : Tx Sig} (hs : tx.success = true) (id : Bytes32) :
    tx.call.amountOf id =
      ((tx.spend?.toList.filter (·.agentId = id)).map (·.amount)).sum := by
  unfold Tx.spend? Call.amountOf
  cases tx.call with
  | consume x => by_cases hid : x.agentId = id <;> simp [hs, hid]
  | _ => simp

theorem spend?_of_failed {tx : Tx Sig} (hs : tx.success = false) : tx.spend? = none := by
  unfold Tx.spend?; cases tx.call <;> simp [hs]

theorem consumes_iff {tx : Tx Sig} (hs : tx.success = true) (o : Bytes32) :
    tx.call.Consumes o ↔ o ∈ tx.spend?.toList.map (·.orderId) := by
  unfold Tx.spend? Call.Consumes
  cases tx.call with
  | consume x => simp [hs, eq_comm]
  | _ => simp

/-- The `spent` field is the sum of the successful spends. -/
theorem spent_eq_sum (h : (lts K Z P).Run World.init τ w) (id : Bytes32) :
    (w.state.agents id).spent = (((spends τ).filter (·.agentId = id)).map (·.amount)).sum := by
  induction h with
  | nil => rfl
  | snoc h hst ih =>
    rw [spends_append, spends_singleton, List.filter_append, List.map_append, List.sum_append,
      ← ih]
    rcases step_cases hst with ⟨hs, hc⟩ | ⟨hf, he⟩
    · rw [spent_change (agentOk_run h) hc, amountOf_eq hs]
    · simp [he, spend?_of_failed hf]

/-- The order markers are exactly the consumed orders. -/
theorem consumed_iff (h : (lts K Z P).Run World.init τ w) (o : Bytes32) :
    w.state.consumed o = true ↔ o ∈ (spends τ).map (·.orderId) := by
  induction h with
  | nil => simp [World.init, init]
  | snoc h hst ih =>
    rw [spends_append, spends_singleton, List.map_append, List.mem_append, ← ih]
    rcases step_cases hst with ⟨hs, hc⟩ | ⟨hf, he⟩
    · rw [consumed_change hc, consumes_iff hs]
    · simp [he, spend?_of_failed hf]

/-- No order is consumed twice. -/
theorem orders_nodup (h : (lts K Z P).Run World.init τ w) :
    ((spends τ).map (·.orderId)).Nodup := by
  induction h with
  | nil => simp
  | @snoc t u τ tx h hst ih =>
    rw [spends_append, spends_singleton, List.map_append, List.nodup_append]
    refine ⟨ih, by cases tx.spend? <;> simp, ?_⟩
    rintro o ho o' ho' rfl
    obtain ⟨x, hx, rfl⟩ := List.mem_map.1 ho'
    have hp := (step_spend hst (by simpa using hx)).1
    rw [← consumed_iff h, hp.fresh] at ho
    cases ho

/-- **Exact accounting.**  After any run, for every agent the `spent` counter is the sum of the
amounts of its successful spends and never exceeds the cap (also right after every call, so right
after every `setAgent`); every order id was consumed at most once, and the markers record exactly
the consumed ones; and every successful spend came from the wired settlement, in an enabled
market, by the agent's current executor bound to the agent's owner, for an active agent and an
allowed seller, with a positive amount under the order cap of the category. -/
theorem accounting (h : (lts K Z P).Run World.init τ w) :
    (∀ id, (w.state.agents id).spent =
      (((spends τ).filter (·.agentId = id)).map (·.amount)).sum) ∧
    (∀ id, (w.state.agents id).spent ≤ (w.state.agents id).totalCap) ∧
    (∀ e ∈ τ, ∀ id, (e.post.state.agents id).spent ≤ (e.post.state.agents id).totalCap) ∧
    (∀ o, ((spends τ).map (·.orderId)).count o ≤ 1) ∧
    (∀ o, w.state.consumed o = true ↔ o ∈ (spends τ).map (·.orderId)) ∧
    ∀ e ∈ τ, ∀ x, e.lab.spend? = some x →
      e.lab.msg.sender = e.pre.state.settlement ∧ e.pre.state.settlement ≠ 0 ∧
      e.pre.state.marketEnabled = true ∧
      x.executor = (e.pre.state.agents x.agentId).executor ∧
      e.pre.state.executorOwners x.executor = (e.pre.state.agents x.agentId).owner ∧
      (e.pre.state.agents x.agentId).active = true ∧
      e.pre.state.counterparties x.agentId x.category x.seller = true ∧
      0 < x.amount ∧ x.amount ≤ (e.pre.state.categories x.category).perOrderCap := by
  refine ⟨spent_eq_sum h, fun id => (agentOk_run h id).capped, fun e he id => ?_, fun o => ?_,
    consumed_iff h, fun e he x hx => ?_⟩
  · obtain ⟨τ₁, τ₂, rfl⟩ := List.append_of_mem he
    obtain ⟨h₁, hst, -⟩ := h.split_at
    exact (agentOk_run (h₁.snoc hst) id).capped
  · exact List.nodup_iff_count_le_one.1 (orders_nodup h) o
  · have hp := (step_spend (h.step_of_mem he) hx).1
    exact ⟨hp.sender, hp.sender ▸ e.lab.msg.sender_ne, hp.enabled, hp.executor, hp.bound,
      hp.active, hp.seller, Nat.pos_of_ne_zero hp.pos, hp.perOrder⟩

end Runs

/-- The accounting of a run with two successful spends and a rejected replay. -/
theorem accounting_spending :
    spends (Demo.run World.init (Demo.setup ++ Demo.spending)).1 =
      [Demo.order 11 60, Demo.order 12 50] ∧
    ((Demo.run World.init (Demo.setup ++ Demo.spending)).2.state.agents 9).spent = 110 := by
  have hs : spends (Demo.run World.init (Demo.setup ++ Demo.spending)).1 =
      [Demo.order 11 60, Demo.order 12 50] := by decide +kernel
  have h := accounting (play_run (K := Demo.keccak) (Z := Demo.openZeppelin) (P := Demo.params)
    World.init (Demo.setup ++ Demo.spending) (by decide +kernel))
  refine ⟨hs, ?_⟩
  rw [h.1 9, hs]
  decide

end ObolosPolicyEnvelope

end Obolos
