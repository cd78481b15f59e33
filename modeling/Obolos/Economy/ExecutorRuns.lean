import Obolos.Economy.ExecutorSteps

/-!
# Every run of the executor

Any number of processes run `runEconomyExecutor` on one directory, for any orders, with any
interleaving and crashes (`invocations`).  What happened in a run is read off its transitions
(`events`).

* `order_paid_once` : at most one approval and one payment are submitted for an order; an order
  that is being aborted is not paid, an aborted one never was, and a paid one is never approved,
  paid or aborted again.
* `approvals_exclusive` : while an order is open it holds the reservation, and nothing is approved
  or paid for another order.
-/

namespace Obolos

namespace Executor

variable {ι : Type} (H : Host) (config : Circle.CircleConfig) (deployment : Deployment)

/-- An invocation of the executor with the Circle-backed dependencies, on any input. -/
def Invocation (p : Prog (Locked Effect) (Locked.Answer Answer) JsError ExecutorState) : Prop :=
  ∃ captured value abortUnpaid, p = runEconomyExecutor H
    (liveExecutorDependencies H config deployment captured) value abortUnpaid

variable {H config deployment} in
/-- The executor is verified. -/
theorem sound : (purchases.protocol (ι := ι)).Sound
    (Locked.system purchases.work (Invocation H config deployment)) := by
  refine Exclusive.sound ?_
  rintro i w p hi ⟨captured, value, abortUnpaid, rfl⟩
  unfold runEconomyExecutor
  rw [Prog.wp_bind, Prog.wp_ofExcept]
  cases ExecutorInput.parse H value with
  | error e => trivial
  | ok intent =>
    show Prog.wp _ _ _ _
    rw [Prog.wp_bind, Prog.wp_ofExcept]
    cases intent.check H with
    | error e => trivial
    | ok _ => exact Exclusive.wp_exclusive hi fun j hj => wp_session hj

/-- A state of the processes and their directories. -/
abbrev Run.State (ι : Type) :=
  System.State ι (Locked.World ι Journal) (Locked Effect) (Locked.Answer Answer) JsError
    ExecutorState

/-- A step of the processes. -/
abbrev Run.Action (ι : Type) :=
  System.Action ι (Locked Effect) (Locked.Answer Answer) JsError ExecutorState

/-- Processes that invoke the executor on one directory. -/
def invocations (ι : Type) [DecidableEq ι] : LTS (Run.State ι) (Run.Action ι) :=
  (Locked.system purchases.work (Invocation H config deployment)).lts

/-- The directories are empty and nobody runs. -/
def Run.start (ι : Type) : Run.State ι := Locked.idle Journal.empty

/-! ### What happens in a run -/

/-- What the outside world notices of an effect. -/
def noticed : (o : Effect) → Except JsError (Answer o) → Option Event
  | .submit name _ _, _ => some (.submitted name)
  | .verifyPayment state, .ok _ => some (.paymentVerified state.intent.orderId)
  | .remark event, _ => some event
  | _, _ => none

/-- What the outside world notices of a step. -/
def Run.event : Run.Action ι → Option Event
  | .effect _ (.work o) r => noticed o r
  | _ => none

/-- What happens in a run. -/
def events (τ : List (Tr (Run.State ι) (Run.Action ι))) : List Event :=
  τ.filterMap fun e => Run.event e.lab

variable [DecidableEq ι] {H config deployment} {j j' : Journal} {s t : Run.State ι}
  {τ σ : List (Tr (Run.State ι) (Run.Action ι))} {A : Bytes32}

theorem work_history {o : Effect} {r : Except JsError (Answer o)} (h : work j o r j') :
    j'.history = j.history ++ (noticed o r).toList := by
  have hwrite : ∀ {changed r}, write j changed r j' → changed.history = j.history →
      j'.history = j.history ++ [] := by
    intro changed r h hc
    rcases write_cases h with ⟨rfl, -⟩ | rfl
    · simp
    · simp [hc]
  cases o with
  | saveState A state => exact hwrite h rfl
  | saveReservation r => exact hwrite h rfl
  | unlinkReservation => exact hwrite h rfl
  | saveOperation name operation => exact hwrite h rfl
  | submit name args key =>
    obtain rfl : j' = j.record (.submitted name) := h
    rfl
  | verifyPayment state =>
    cases r with
    | ok _ =>
      obtain rfl : j' = j.record (.paymentVerified state.intent.orderId) := h
      rfl
    | error e =>
      obtain rfl : j' = j := h
      simp [noticed]
  | remark event =>
    obtain ⟨-, rfl⟩ := h
    rfl
  | readState A =>
    cases r with
    | ok _ => simp [h.2, noticed]
    | error e =>
      obtain rfl : j' = j := h
      simp [noticed]
  | readReservation =>
    cases r with
    | ok _ => simp [h.2, noticed]
    | error e =>
      obtain rfl : j' = j := h
      simp [noticed]
  | loadOperation name =>
    cases r with
    | ok _ => simp [h.2, noticed]
    | error e =>
      obtain rfl : j' = j := h
      simp [noticed]
  | _ =>
    obtain rfl : j' = j := h
    simp [noticed]

theorem step_history {a : Run.Action ι} (h : (invocations H config deployment ι).step s a t) :
    t.world.data.history = s.world.data.history ++ (Run.event a).toList := by
  cases h with
  | @effect i o k r d running sem =>
    cases o with
    | work o =>
      obtain ⟨j', hwork, rfl⟩ := sem
      exact work_history hwork
    | acquire =>
      cases r with
      | ok _ =>
        obtain ⟨-, rfl⟩ := sem
        simp [Run.event]
      | error e =>
        obtain rfl : d = s.world := sem
        simp [Run.event]
    | unlink =>
      cases r with
      | ok _ =>
        obtain rfl : d = ⟨none, s.world.data⟩ := sem
        simp [Run.event]
      | error e =>
        obtain rfl : d = s.world := sem
        simp [Run.event]
    | mkdir =>
      obtain rfl : d = s.world := sem
      simp [Run.event]
    | close =>
      obtain rfl : d = s.world := sem
      simp [Run.event]
  | env env =>
    obtain ⟨-, rfl⟩ := env
    simp [Run.event]
  | _ => simp [Run.event]

/-- The history of a directory is what happened in the run. -/
theorem run_history (h : (invocations H config deployment ι).Run s τ t) :
    t.world.data.history = s.world.data.history ++ events τ := by
  induction h with
  | nil => simp [events]
  | snoc h hst ih =>
    rw [step_history hst, ih, List.append_assoc]
    congr 1
    simp only [events, List.filterMap_append, List.append_cancel_left_eq]
    cases ha : Run.event _ <;> simp [ha]

theorem start_history (h : (invocations H config deployment ι).Run (Run.start ι) τ t) :
    t.world.data.history = events τ := by
  rw [run_history h]
  rfl

/-! ### A purchase -/

/-- Answers with which every purchase goes through. -/
def respond (j : Journal) : (o : Effect) → Except JsError (Answer o) × Journal
  | .readState A => (.ok (j.states A), j)
  | .saveState A state => (.ok (), j.setState A state)
  | .readReservation => (.ok j.reservation, j)
  | .saveReservation r => (.ok (), j.setReservation (some r))
  | .unlinkReservation => (.ok (), j.setReservation none)
  | .syncDirectory => (.ok (), j)
  | .mkdirJournal => (.ok (), j)
  | .lockOperation _ => (.ok (), j)
  | .closeOperation _ => (.ok (), j)
  | .unlockOperation _ => (.ok (), j)
  | .loadOperation name => (.ok (j.operations name), j)
  | .saveOperation name operation => (.ok (), j.setOperation name operation)
  | .randomUUID => (.ok (js "key"), j)
  | .submit name _ key =>
    (.ok (.obj [(js "idempotencyKey", .str key), (js "blockchain", .str Circle.CHAIN),
      (js "sourceAddress", .str (js "0xa")), (js "txHash", .str (Bytes32.text 1))]),
      j.record (.submitted name))
  | .circle _ => (.error .other, j)
  | .getChainId => (.ok Circle.CHAIN_ID, j)
  | .findFinalizedUserOperation _ _ => (.ok none, j)
  | .waitForTransactionReceipt _ => (.ok true, j)
  | .finalizedReceipt _ => (.ok (), j)
  | .assertUnpaid _ => (.ok (), j)
  | .allowance _ => (.ok 0, j)
  | .finalizedAllowance _ => (.ok 0, j)
  | .authenticate _ => (.ok (), j)
  | .preflight _ _ => (.ok ⟨1, 1, 1⟩, j)
  | .prepareApproval _ => (.ok (), j)
  | .preparePayment _ => (.ok (), j)
  | .assertActiveService _ => (.ok (), j)
  | .verifyPayment state => (.ok (), j.record (.paymentVerified state.intent.orderId))
  | .deliver request =>
    (.ok ⟨request.orderId.text, request.serviceHash.text, request.transactionHash.text,
      js "fulfilled", some (.bool true),
      some (Bytes32.text (Host.plain.textHash (js "true")))⟩, j)
  | .verifyDelivery _ => (.ok true, j)
  | .remark event => (.ok (), j.record event)

theorem respond_work (j : Journal) (o : Effect) : work j o (respond j o).1 (respond j o).2 := by
  cases o <;> first | rfl | exact ⟨rfl, rfl⟩

/-- The schema of a truth value. -/
def exampleSchema : Json := .obj [(js "type", .str (js "boolean"))]

/-- The terms of a service. -/
def exampleTerms : ServiceTerms where
  settlementAddress := 1
  ledgerAddress := 2
  seller := 3
  endpoint := js "https://provider.example/"
  category := .inference
  unit := js "inference-request"
  quantity := 2
  unitPriceAtomic := 50
  inputSchema := exampleSchema
  outputSchema := exampleSchema

/-- The order `7` for this service. -/
def exampleInput : ExecutorInput where
  origin := js "https://market.example"
  platformAgentId := js "agent"
  orderId := 7
  owner := 4
  payer := 5
  definition := { exampleTerms with
    serviceHash := Host.plain.wordsHash (exampleTerms.words Host.plain) }
  serviceHash := Host.plain.wordsHash (exampleTerms.words Host.plain)
  input := .bool true
  maxAmountAtomic := 100
  expiry := 1000

/-- The configuration of the purchase. -/
def exampleConfig : Circle.CircleConfig := ⟨js "0xA"⟩

/-- The deployment of the purchase. -/
def exampleDeployment : Deployment := ⟨js "0x1", js "0x2"⟩

/-- An invocation for the order. -/
def exampleProgram : Prog (Locked Effect) (Locked.Answer Answer) JsError ExecutorState :=
  runEconomyExecutor Host.plain (liveExecutorDependencies Host.plain exampleConfig
    exampleDeployment exampleInput) exampleInput.json false

theorem exampleProgram_invocation :
    Invocation Host.plain exampleConfig exampleDeployment exampleProgram :=
  ⟨exampleInput, exampleInput.json, false, rfl⟩

/-- The invocation has started. -/
def exampleStart (s : Run.State Unit) : Run.State Unit :=
  ⟨s.world, Function.update s.processes () (some exampleProgram)⟩

/-- The first `n` steps of the invocation. -/
def exampleRun (n : ℕ) (s : Run.State Unit) :
    List (Tr (Run.State Unit) (Run.Action Unit)) × Run.State Unit :=
  System.solo (Locked.answer respond .other ()) () n (exampleStart s)

/-- The transition that starts the invocation. -/
def exampleTransition (s : Run.State Unit) : Tr (Run.State Unit) (Run.Action Unit) :=
  ⟨s, .start () exampleProgram, exampleStart s⟩

theorem exampleRun_run {n : ℕ} {s : Run.State Unit} (hfree : s.processes () = none)
    (howner : s.world.owner = none) :
    (invocations Host.plain exampleConfig exampleDeployment Unit).Run s
      (exampleTransition s :: (exampleRun n s).1) (exampleRun n s).2 := by
  have hstart : (invocations Host.plain exampleConfig exampleDeployment Unit).step s
      (.start () exampleProgram) (exampleStart s) :=
    .start hfree ⟨by rw [howner]; simp, exampleProgram_invocation⟩
  exact LTS.Run.cons_iff.2 ⟨rfl, hstart, System.solo_run (Locked.answer_sem respond_work) n _⟩

/-- The order after the purchase. -/
def exampleEnd : Run.State Unit := (exampleRun 60 (Run.start Unit)).2

/-- What the purchase comes to, and its first half. -/
theorem exampleRun_evaluated :
    events (exampleRun 60 (Run.start Unit)).1 =
        [.reached 7 .approve, .submitted (nameOf 7 .approve), .reached 7 .pay,
          .submitted (nameOf 7 .pay), .paymentVerified 7] ∧
      (exampleEnd.processes ()).isNone = true ∧ exampleEnd.world.owner = none ∧
      (exampleEnd.world.data.states 7).map ExecutorState.phase = some .completed ∧
      events (exampleTransition (Run.start Unit) :: (exampleRun 25 (Run.start Unit)).1) =
        [.reached 7 .approve, .submitted (nameOf 7 .approve)] := by
  decide +kernel

/-! ### The promises -/

theorem run_inv (h : (invocations H config deployment ι).Run (Run.start ι) τ t) :
    t.world.data.Inv :=
  Exclusive.run sound Journal.inv_empty h

theorem run_change (h : (invocations H config deployment ι).Run (Run.start ι) τ s)
    (h' : (invocations H config deployment ι).Run s σ t) :
    s.world.data.Change t.world.data :=
  Exclusive.rel sound Journal.inv_empty h h' Journal.Change.refl
    (fun _ _ _ h h' => h.trans h') fun _ _ _ hg => hg.2

/-- **An order is approved once, paid once, and paid or aborted.**  Over any run: at most one
approval and at most one payment of the order are submitted; from a state on in which the order
is stored as `aborting` or `aborted`, no payment is submitted; before a state in which it is
`aborted`, none was; and from a state on in which it is stored as paid, delivered, acknowledging
or completed, `approve`, `pay` and `abort` are not reached again. -/
theorem order_paid_once (h : (invocations H config deployment ι).Run (Run.start ι) τ s)
    (h' : (invocations H config deployment ι).Run s σ t) (A : Bytes32) :
    (events (τ ++ σ)).count (.submitted (nameOf A .approve)) ≤ 1 ∧
      (events (τ ++ σ)).count (.submitted (nameOf A .pay)) ≤ 1 ∧
      (∀ state, s.world.data.states A = some state →
        (state.phase = .aborting ∨ state.phase = .aborted →
          .submitted (nameOf A .pay) ∉ events σ) ∧
        (state.phase = .aborted → .submitted (nameOf A .pay) ∉ events τ) ∧
        (state.phase ∈ [.paid, .delivered, .acknowledging, .completed] →
          ∀ k, .reached A k ∉ events σ)) := by
  have hinv := run_inv (h.append h')
  have hall : t.world.data.history = events (τ ++ σ) := start_history (h.append h')
  have hsplit : events (τ ++ σ) = events τ ++ events σ := by simp [events]
  have hchange := run_change h h'
  -- a payment that was ever submitted is journalled, and then the order is not being aborted
  have hunpaid : s.world.data.InPhase A Phase.isAborting →
      .submitted (nameOf A .pay) ∉ events (τ ++ σ) := by
    intro haborting hmem
    rw [← hall] at hmem
    have hsome := hinv.journalled _ hmem
    rw [hinv.unpaid A (hchange.aborting A haborting)] at hsome
    cases hsome
  refine ⟨hall ▸ hinv.once _, hall ▸ hinv.once _, fun state hstate => ⟨?_, ?_, ?_⟩⟩
  · intro hphase hmem
    refine hunpaid ⟨state, hstate, ?_⟩ (by rw [hsplit]; simp [hmem])
    rcases hphase with hp | hp <;> rw [hp] <;> rfl
  · intro hphase hmem
    exact hunpaid ⟨state, hstate, by rw [hphase]; rfl⟩ (by rw [hsplit]; simp [hmem])
  · intro hphase k
    obtain ⟨new, hnew, hreached⟩ := hchange.history
    rw [run_history h', List.append_cancel_left_eq] at hnew
    rw [hnew]
    refine hreached A ⟨state, hstate, ?_⟩ k
    revert hphase
    cases state.phase <;> decide

/-- A completed purchase, invoked once more. -/
theorem order_paid_once_purchase :
    events (exampleRun 60 (Run.start Unit)).1 =
        [.reached 7 .approve, .submitted (nameOf 7 .approve), .reached 7 .pay,
          .submitted (nameOf 7 .pay), .paymentVerified 7] ∧
      ∀ k, .reached 7 k ∉ events (exampleTransition exampleEnd :: (exampleRun 60 exampleEnd).1) := by
  obtain ⟨hevents, hfree, howner, hphase, -⟩ := exampleRun_evaluated
  obtain ⟨state, hstate, hcompleted⟩ := Option.map_eq_some_iff.1 hphase
  have h : (invocations Host.plain exampleConfig exampleDeployment Unit).Run (Run.start Unit)
      (exampleTransition (Run.start Unit) :: (exampleRun 60 (Run.start Unit)).1) exampleEnd :=
    exampleRun_run rfl rfl
  have h' := exampleRun_run (n := 60) (Option.isNone_iff_eq_none.1 hfree) howner
  have hpaid := ((order_paid_once h h' 7).2.2 state hstate).2.2
  refine ⟨hevents, hpaid ?_⟩
  rw [hcompleted]
  decide

/-- **Approvals are exclusive.**  In every reachable state: an order whose approval was submitted,
and whose payment or abort was not verified since, holds the reservation; and a step from there
that submits an approval or a payment is for this order. -/
theorem approvals_exclusive (h : (invocations H config deployment ι).Run (Run.start ι) τ s)
    (hA : Open A (events τ)) :
    (∃ r, s.world.data.reservation = some r ∧ r.orderId = A) ∧
      ∀ a t B k, (invocations H config deployment ι).step s a t → k = .approve ∨ k = .pay →
        Run.event a = some (.submitted (nameOf B k)) → B = A := by
  rw [← start_history h] at hA
  refine ⟨(run_inv h).reserved A hA, fun a t B k hst hk ha => ?_⟩
  have hhistory := step_history hst
  rw [ha] at hhistory
  exact ((run_inv (h.snoc hst)).separate _ _ B k hhistory hk A hA).symm

/-- The purchase right after the submission of its approval. -/
theorem approvals_exclusive_purchase :
    events (exampleTransition (Run.start Unit) :: (exampleRun 25 (Run.start Unit)).1) =
        [.reached 7 .approve, .submitted (nameOf 7 .approve)] ∧
      ∃ r, (exampleRun 25 (Run.start Unit)).2.world.data.reservation = some r ∧ r.orderId = 7 := by
  obtain ⟨-, -, -, -, hevents⟩ := exampleRun_evaluated
  have h := exampleRun_run (n := 25) (s := Run.start Unit) rfl rfl
  have hopen : Open 7 (events (exampleTransition (Run.start Unit) ::
      (exampleRun 25 (Run.start Unit)).1)) := by
    rw [hevents]
    exact ⟨[.reached 7 .approve], [], rfl, by simp, by simp⟩
  exact ⟨hevents, (approvals_exclusive h hopen).1⟩

end Executor

end Obolos
