import Obolos.Runs.Spending

/-!
# What the engine spends

Every action keeps the accounts of its run (`During.action`).  While an action is going on the
record of the run in the file carries the marker of the operation; a payment is made only for a
run that is open, so at most once, and afterwards the run is in a later stage or has failed.
-/

namespace Obolos

namespace Runs

open Json Method

variable {P : Server} {env : ProcessEnv} {recs : List StoredRun} {x : StoredRun} {run : Run}
  {d : World}

/-- The state of the run `x.run` in the middle of an action, when the file is `recs`. -/
structure During (P : Server) (recs : List StoredRun) (x : StoredRun) (run : Run) (d : World) :
    Prop where
  inv : Inv P d
  records : d.records = recs
  accounts : Accounts P run
  evolves : Evolves P x.run run

/-- An action ends with a run that is open, if anything can still happen to it. -/
structure Ended (P : Server) (recs : List StoredRun) (x : StoredRun) (run : Run) (d : World) :
    Prop where
  during : During P recs x run d
  opened : ¬ run.status.final → Open d run

/-- A stage that throws may leave a run that is not open: it fails then. -/
def Done (P : Server) (recs : List StoredRun) (x : StoredRun) :
    Except JsError Unit → Run → World → Prop
  | .ok _, run, d => Ended P recs x run d
  | .error _, run, d => During P recs x run d

/-- The record of the run while an action that may call the gateway is going on. -/
structure Marked (recs : List StoredRun) (x : StoredRun) : Prop where
  mem : x ∈ recs
  inFlight : x.inFlight ≠ none
  going : ¬ x.run.status.final

/-- At the start of a stage. -/
structure Ready (P : Server) (recs : List StoredRun) (x : StoredRun) (stage : Stage) (run : Run)
    (d : World) : Prop where
  during : During P recs x run d
  status : run.status = .running
  stage : run.stage = stage
  mandate : run.mandate = x.run.mandate
  opened : Open d run

/-! ### Effects -/

/-- A property that logging keeps. -/
structure Quiet (P : Server) (I : Run → World → Prop) : Prop where
  inv : ∀ {run d}, I run d → Inv P d
  logged : ∀ {run d} events updatedAt, I run d →
    I { run with events := events, updatedAt := updatedAt } d
  drawn : ∀ {run d} id, I run d → I run { d with uuids := id :: d.uuids }

namespace Quiet

variable {I : Run → World → Prop} (hI : Quiet P I)

include hI

theorem stable (run : Run) : Stable (spending P).spec (I run) where
  effect {o} _ _ _ _ ho h hrely hsem := by
    cases hrely
    cases o with
    | now =>
      obtain ⟨-, rfl⟩ := hsem
      exact ⟨Allowed.refl (hI.inv h), h⟩
    | randomUUID =>
      obtain ⟨id, -, -, rfl⟩ := hsem
      exact ⟨Allowed.draw (hI.inv h) id, hI.drawn id h⟩
    | _ => exact ho.elim

theorem wp_log {actor : Actor} {kind : Kind} {title detail : JsString} (h : I run d) :
    (log (P.withFile env) actor kind title detail).wp (spending P).spec
      (fun r run' d' => r = .ok () ∧ I run' d') run d := by
  refine wp_mono ((hI.stable run).wp_log rfl h) ?_
  rintro r run' d' ⟨rfl, h, id, timestamp, updatedAt, rfl⟩
  exact ⟨rfl, hI.logged _ _ h⟩

/-- A property of the accounts goes along. -/
theorem and {p : Run → World → Prop}
    (hlogged : ∀ {run d} events updatedAt, p run d →
      p { run with events := events, updatedAt := updatedAt } d)
    (hdrawn : ∀ {run d} id, p run d → p run { d with uuids := id :: d.uuids }) :
    Quiet P fun run d => I run d ∧ p run d :=
  ⟨fun h => hI.inv h.1, fun events updatedAt h => ⟨hI.logged events updatedAt h.1,
    hlogged events updatedAt h.2⟩, fun id h => ⟨hI.drawn id h.1, hdrawn id h.2⟩⟩

end Quiet

theorem During.quiet : Quiet P (During P recs x) where
  inv h := h.inv
  logged events updatedAt h :=
    ⟨h.inv, h.records, h.accounts.logged events updatedAt, h.evolves.logged events updatedAt⟩
  drawn id h := ⟨h.inv.draw id, h.records, h.accounts, h.evolves⟩

theorem Ended.quiet : Quiet P (Ended P recs x) where
  inv h := h.during.inv
  logged events updatedAt h := ⟨During.quiet.logged events updatedAt h.during, fun hfinal =>
    ⟨(h.opened hfinal).data, (h.opened hfinal).verification⟩⟩
  drawn id h := ⟨During.quiet.drawn id h.during, fun hfinal =>
    ⟨(h.opened hfinal).data, (h.opened hfinal).verification⟩⟩

theorem Ready.quiet {stage : Stage} : Quiet P (Ready P recs x stage) where
  inv h := h.during.inv
  logged events updatedAt h := ⟨During.quiet.logged events updatedAt h.during, h.status, h.stage,
    h.mandate, ⟨h.opened.data, h.opened.verification⟩⟩
  drawn id h := ⟨During.quiet.drawn id h.during, h.status, h.stage, h.mandate,
    ⟨h.opened.data, h.opened.verification⟩⟩

/-- Logging at the end of an action. -/
theorem wp_log_ended (h : Ended P recs x run d) {actor : Actor} {kind : Kind}
    {title detail : JsString} : (log (P.withFile env) actor kind title detail).wp (spending P).spec
      (fun _ => Ended P recs x) run d :=
  wp_mono (Ended.quiet.wp_log h) fun _ _ _ h => h.2

/-- Logging at the end of a stage. -/
theorem wp_log_done (h : Ended P recs x run d) {actor : Actor} {kind : Kind}
    {title detail : JsString} :
    (log (P.withFile env) actor kind title detail).wp (spending P).spec (Done P recs x) run d := by
  refine wp_mono (Ended.quiet.wp_log h) ?_
  rintro r run' d' ⟨rfl, h⟩
  exact h

theorem wp_now {Q : Except JsError ℤ → Run → World → Prop} (hd : Inv P d)
    (hQ : ∀ time, Q (.ok time) run d) :
    Method.wp (spending P).spec (await Effect.now) Q run d := by
  rw [wp_await]
  rintro d₁ rfl r d₂ ⟨⟨time, rfl⟩, rfl⟩
  exact ⟨Allowed.refl hd, hQ time⟩

theorem wp_refuse {Φ : Prog.Spec World Effect Answer JsError} {bad : Prop} [Decidable bad]
    {message : String} {Q : Except JsError Unit → Run → World → Prop}
    (hbad : bad → Q (.error (.error (js message))) run d) (hok : ¬ bad → Q (.ok ()) run d) :
    (refuse bad message).wp Φ Q run d := wp_onlyIf (fun h => wp_throw.2 (hbad h)) hok

/-- A call of the gateway. -/
theorem During.wp_call (h : During P recs x run d) (hx : Marked recs x) {o : Effect}
    {c : GatewayCall} (ho : ∀ r d', work d o r d' → d' = d.call c) (hid : c.runId = run.id)
    (hbuys : c.buys run.id = true → d.purchases run.id = 0)
    (hverifies : c.verifies run.id = true → d.verifications run.id = 0)
    {Q : Except JsError (Answer o) → Run → World → Prop}
    (hQ : ∀ r, During P recs x run (d.call c) → Q r run (d.call c)) :
    (await o).wp (spending P).spec Q run d := by
  rw [wp_await]
  rintro d₁ rfl r d₂ hsem
  obtain rfl := ho r d₂ hsem
  rw [h.evolves.id] at hid hbuys hverifies
  have hallowed := Allowed.call h.inv (h.records ▸ hx.mem) hx.inFlight hx.going hid hbuys hverifies
  exact ⟨hallowed, hQ r ⟨hallowed.inv, h.records, h.accounts, h.evolves⟩⟩

/-- Without approval a running run. -/
theorem Ready.approval {stage : Stage} (h : Ready P recs x stage run d) : run.approval = none := by
  by_contra hne
  rcases h.during.accounts.pending hne with hs | hs
  · rw [h.status] at hs; cases hs
  · rw [h.status] at hs; cases hs

/-! ### Quotes -/

/-- What `assessQuote` has found out about an allowed quote. -/
structure Affordable (C : Context) (run : Run) (p : Provider) : Prop where
  valid : validQuote C p run.repos.length run.dataSpentAtomic = true
  budget : C.sum run.dataSpentAtomic (C.amount p.unitPriceAtomic run.repos.length) ≤
    run.mandate.dataBudgetAtomic

variable {C : Context}

theorem wp_isOver {text : JsString} {Q : Except JsError Bool → Run → World → Prop} (hd : Inv P d)
    (hQ : ∀ b, Q (.ok b) run d) : (isOver C text).wp (spending P).spec Q run d := by
  unfold isOver
  split
  · exact wp_pure.2 (hQ true)
  · rw [wp_bind]
    refine wp_now hd fun _ => ?_
    exact wp_pure.2 (hQ _)

theorem wp_isPast {text : JsString} {Q : Except JsError Bool → Run → World → Prop} (hd : Inv P d)
    (hQ : ∀ b, Q (.ok b) run d) : (isPast C text).wp (spending P).spec Q run d := by
  unfold isPast
  split
  · exact wp_pure.2 (hQ false)
  · rw [wp_bind]
    refine wp_now hd fun _ => ?_
    exact wp_pure.2 (hQ _)

theorem wp_assessQuote {run₀ : Run} {p : Provider}
    {Q : Except JsError Assessment → Run → World → Prop} (hd : Inv P d)
    (hQ : ∀ a, (a.allowed = true → Affordable C run₀ p) → Q (.ok a) run d) :
    (assessQuote C run₀.mandate p run₀.repos.length run₀.dataSpentAtomic).wp (spending P).spec Q
      run d := by
  have hdeny : ∀ code reason : String, Q (.ok (deny code reason)) run d := fun code reason =>
    hQ _ fun h => by cases h
  refine wp_ite (fun _ => wp_pure.2 (hdeny ..)) fun hvalid => ?_
  rw [wp_bind]
  refine wp_isOver hd fun b => ?_
  refine wp_ite (fun _ => wp_pure.2 (hdeny ..)) fun _ => ?_
  refine wp_ite (fun _ => wp_pure.2 (hdeny ..)) fun _ => ?_
  refine wp_ite (fun _ => wp_pure.2 (hdeny ..)) fun _ => ?_
  refine wp_ite (fun _ => wp_pure.2 (hdeny ..)) fun _ => ?_
  refine wp_ite (fun _ => wp_pure.2 (hdeny ..)) fun hbudget => ?_
  exact wp_pure.2 (hQ _ fun _ => ⟨by simpa using hvalid, not_lt.1 hbudget⟩)

theorem wp_findApproved {run₀ : Run} {providers : List Provider}
    {Q : Except JsError (Option Provider) → Run → World → Prop} (hd : Inv P d)
    (hQ : ∀ r, (∀ p, r = some p → Affordable C run₀ p) → Q (.ok r) run d) :
    (findApproved C run₀ providers).wp (spending P).spec Q run d := by
  induction providers with
  | nil => exact wp_pure.2 (hQ none fun _ h => by cases h)
  | cons p rest ih =>
    unfold findApproved
    rw [wp_bind]
    refine wp_assessQuote hd fun a ha => ?_
    refine wp_ite (fun hallowed => wp_pure.2 (hQ _ fun p' hp' => ?_)) fun _ => ih
    obtain rfl := Option.some.inj hp'
    exact ha hallowed

/-! ### Changes without payments -/

/-- A change that leaves the money alone and does not go back to an earlier stage. -/
structure Forward (run run' : Run) : Prop where
  id : run'.id = run.id
  mandate : run'.mandate = run.mandate
  data : run'.dataSpentAtomic = run.dataSpentAtomic
  verification : run'.verificationSpentAtomic = run.verificationSpentAtomic
  evidence : run'.evidence = run.evidence
  receipts : run'.receipts = run.receipts
  approval : run'.approval = run.approval
  mode : run'.mode = run.mode
  repos : run'.repos = run.repos
  early : run'.stage.early → run.stage.early
  complete : run'.stage ≠ .complete → run.stage ≠ .complete
  pending : run.approval ≠ none → run'.status = .awaitingApproval ∨ run'.status = .failed
  final : run.status.final → run'.status.final

theorem Forward.receiptsOn {run' : Run} (h : Forward run run') (network : JsString) :
    run'.receiptsOn network = run.receiptsOn network := by
  rw [Run.receiptsOn, Run.receiptsOn, h.receipts]

theorem Forward.paidOn {run' : Run} (h : Forward run run') (network : JsString) :
    run'.paidOn network = run.paidOn network := by
  rw [Run.paidOn, Run.paidOn, h.receiptsOn]

theorem Forward.proposed {run' : Run} (h : Forward run run') {message : JsString}
    {mandate : Mandate} (hp : run.Proposed P message mandate) : run'.Proposed P message mandate := by
  obtain ⟨p, expiry, signerMode, nonce, expiresAt, rfl, rfl⟩ := hp
  have hproposal : run'.proposal (P.withFile noEnv) p expiry =
      run.proposal (P.withFile noEnv) p expiry := by
    simp only [Run.proposal, h.mandate, h.data, h.repos]
  refine ⟨p, expiry, signerMode, nonce, expiresAt, hproposal.symm, ?_⟩
  simp only [approvalMessage, h.id, h.mode, h.mandate]

theorem During.forward {run' : Run} (h : During P recs x run d) (hf : Forward run run') :
    During P recs x run' d := by
  refine ⟨h.inv, h.records, ⟨?_, ?_, ?_, ?_, ?_, ?_, ?_, ?_⟩, ⟨?_, ?_, ?_, ?_, ?_, ?_, ?_⟩⟩
  · rw [hf.data, hf.paidOn, h.accounts.data]
  · rw [hf.verification, hf.paidOn, h.accounts.verification]
  · rw [hf.data, hf.mandate]
    exact h.accounts.dataBudget
  · rw [hf.verification, hf.mandate]
    exact h.accounts.verificationBudget
  · rw [hf.receipts, hf.evidence]
    exact fun hearly => h.accounts.unpaid (hf.early hearly)
  · rw [hf.approval]
    exact fun a ha => hf.proposed (h.accounts.proposed a ha)
  · rw [hf.approval]
    exact hf.pending
  · rw [hf.mandate]
    exact h.accounts.priced
  · rw [hf.id, h.evolves.id]
  · rw [hf.receipts]
    exact h.evolves.receipts
  · rw [hf.evidence]
    exact h.evolves.evidence
  · exact fun hfinal => hf.final (h.evolves.final hfinal)
  · rw [hf.mandate]
    exact h.evolves.mandate.imp_right fun ⟨e, a, address, signature, h₀, h₁, h₂, h₃, h₄, h₅, h₆⟩ =>
      ⟨e, a, address, signature, h₀, h₁, h₂, h₃, h₄, hf.mandate.trans h₅, h₆⟩
  · rw [hf.data, hf.mandate]
    exact h.evolves.data
  · rw [hf.verification, hf.mandate]
    exact h.evolves.verification

theorem Open.forward {run' : Run} (h : Open d run) (hf : Forward run run') : Open d run' := by
  refine ⟨?_, ?_⟩
  · rw [hf.id]
    exact fun hearly => h.data (hf.early hearly)
  · rw [hf.id, hf.receiptsOn]
    exact fun hstage => h.verification (hf.complete hstage)

theorem Ready.done {stage : Stage} {run' : Run} (h : Ready P recs x stage run d)
    (hf : Forward run run') : Ended P recs x run' d :=
  ⟨h.during.forward hf, fun _ => h.opened.forward hf⟩

theorem Ready.forward {stage : Stage} {run' : Run} (h : Ready P recs x stage run d)
    (hf : Forward run run') (hstatus : run'.status = run.status) (hstage : run'.stage = run.stage) :
    Ready P recs x stage run' d :=
  ⟨h.during.forward hf, hstatus.trans h.status, hstage.trans h.stage, hf.mandate.trans h.mandate,
    h.opened.forward hf⟩

/-- A running run that stays running, in a stage that is not earlier. -/
theorem Ready.forward_iff {stage : Stage} {run' : Run} (h : Ready P recs x stage run d)
    (hmoney : run' = { run with
      status := run'.status, stage := run'.stage, updatedAt := run'.updatedAt
      providers := run'.providers, selectedProvider := run'.selectedProvider
      report := run'.report, shockApplied := run'.shockApplied, events := run'.events
      error := run'.error, authorizations := run'.authorizations, title := run'.title
      createdAt := run'.createdAt })
    (hearly : run'.stage.early → stage.early) (hcomplete : stage ≠ .complete) :
    Forward run run' := by
  have hnone : run.approval = none := h.approval
  rw [hmoney]
  refine ⟨rfl, rfl, rfl, rfl, rfl, rfl, rfl, rfl, rfl, ?_, ?_, ?_, ?_⟩
  · exact fun h' => h.stage ▸ hearly h'
  · exact fun _ => h.stage ▸ hcomplete
  · exact fun ha => absurd hnone ha
  · rintro (hs | hs)
    · rw [h.status] at hs; cases hs
    · rw [h.status] at hs; cases hs

/-- A call of the gateway that pays for nothing. -/
theorem Ready.wp_call {stage : Stage} (h : Ready P recs x stage run d) (hx : Marked recs x)
    {o : Effect} {c : GatewayCall} (ho : ∀ r d', work d o r d' → d' = d.call c)
    (hid : c.runId = run.id) (hbuys : c.buys run.id = false) (hverifies : c.verifies run.id = false)
    {Q : Except JsError (Answer o) → Run → World → Prop}
    (hQ : ∀ r d', Ready P recs x stage run d' → Q r run d') :
    (await o).wp (spending P).spec Q run d := by
  refine h.during.wp_call hx ho hid (fun hb => ?_) (fun hv => ?_) fun r hd => hQ r _ ?_
  · rw [hbuys] at hb; cases hb
  · rw [hverifies] at hv; cases hv
  · refine ⟨hd, h.status, h.stage, h.mandate, fun hearly => ?_, fun hstage => ?_⟩
    · rw [purchases_call, hbuys]
      exact h.opened.data hearly
    · rw [verifications_call, hverifies]
      exact h.opened.verification hstage

/-! ### The stages without payments -/

theorem Ready.acceptMandate (h : Ready P recs x .mandate run d) :
    (acceptMandate (P.withFile env)).wp (spending P).spec (Done P recs x) run d := by
  unfold Runs.acceptMandate
  rw [wp_bind]
  refine wp_mono (Ready.quiet.wp_log h) ?_
  rintro r run d ⟨rfl, h⟩
  refine wp_modify.2 (h.done (h.forward_iff rfl (fun _ => Or.inl rfl) (by decide)))

theorem Ready.discoverServices (h : Ready P recs x .discovery run d) (hx : Marked recs x) :
    (discoverServices (P.withFile env)).wp (spending P).spec (Done P recs x) run d := by
  unfold Runs.discoverServices
  rw [wp_bind, wp_self]
  simp only
  rw [wp_bind]
  refine h.wp_call hx (o := .discover run.id) (c := .discover run.id) (fun _ _ h => h) rfl rfl rfl
    fun r d h => ?_
  cases r with
  | error e => exact h.during
  | ok providers =>
    simp only
    rw [wp_bind, wp_modify]
    simp only
    rw [wp_bind, wp_self]
    have hforward : Forward run { run with providers := providers } :=
      h.forward_iff rfl (fun _ => Or.inr (Or.inl rfl)) (by decide)
    have h := h.forward hforward rfl rfl
    simp only
    split
    · exact wp_throw.2 h.during
    · rw [wp_bind, wp_modify]
      refine wp_log_done (h.done (h.forward_iff rfl (fun _ => Or.inr (Or.inl rfl)) (by decide)))

theorem Ready.draftReport (h : Ready P recs x .report run d) (hx : Marked recs x) :
    (draftReport (P.withFile env)).wp (spending P).spec (Done P recs x) run d := by
  unfold Runs.draftReport
  rw [wp_bind, wp_self]
  simp only
  rw [wp_bind]
  refine h.wp_call hx (o := .generateReport run.id run.evidence) (c := .generateReport run.id)
    (fun _ _ h => h) rfl rfl rfl fun r d h => ?_
  cases r with
  | error e => exact h.during
  | ok summary =>
    simp only
    rw [wp_bind]
    refine wp_now h.during.inv fun time => ?_
    simp only
    rw [wp_bind, wp_modify]
    have hearly : Stage.verification.early → Stage.report.early := by
      rintro (h | h | h) <;> cases h
    exact wp_log_done (h.done (h.forward_iff rfl hearly (by decide)))

/-- Asking the controller. -/
theorem Ready.requestApproval {stage : Stage} (h : Ready P recs x stage run d) (hx : Marked recs x)
    {p : Provider} {reason : JsString} :
    (requestApproval (P.withFile env) p reason).wp (spending P).spec (Done P recs x) run d := by
  unfold Runs.requestApproval
  rw [wp_bind, wp_self]
  simp only
  rw [wp_bind]
  refine wp_now h.during.inv fun time => ?_
  simp only
  rw [wp_bind, wp_await]
  rintro d₁ rfl r d ⟨nonce, rfl, -, rfl⟩
  refine ⟨Allowed.draw h.during.inv nonce, ?_⟩
  have h := Ready.quiet.drawn nonce h
  simp only
  rw [wp_bind]
  refine wp_now h.during.inv fun time' => ?_
  simp only
  rw [wp_bind, wp_modify]
  refine wp_log_done ⟨⟨h.during.inv, h.during.records, ?_, ?_⟩, fun _ => ?_⟩
  · obtain ⟨h₁, h₂, h₃, h₄, h₅, -, -, h₈⟩ := h.during.accounts
    refine ⟨h₁, h₂, h₃, h₄, h₅, ?_, fun _ => Or.inl rfl, h₈⟩
    intro a ha
    obtain rfl := Option.some.inj ha
    exact ⟨p, _, _, nonce, _, rfl, rfl⟩
  · obtain ⟨h₁, h₂, h₃, -, h₅, h₆, h₇⟩ := h.during.evolves
    exact ⟨h₁, h₂, h₃, fun hfinal => absurd hfinal hx.going, h₅, h₆, h₇⟩
  · exact ⟨h.opened.data, h.opened.verification⟩

/-! ### The payment for the data -/

theorem hedera_ne_arc : hedera ≠ arc := by decide

/-- One more receipt. -/
theorem paidOn_append {run' : Run} {receipt : Receipt}
    (h : run'.receipts = run.receipts ++ [receipt]) (network : JsString) :
    run'.paidOn network =
      run.paidOn network + if receipt.network = network then receipt.amountAtomic else 0 := by
  rw [Run.paidOn, Run.paidOn, Run.receiptsOn, Run.receiptsOn, h, List.filter_append, List.map_append,
    List.sum_append]
  congr 1
  by_cases hn : receipt.network = network
  · simp [hn]
  · simp [hn]

theorem wp_validateReceipt {Φ : Prog.Spec World Effect Answer JsError} {r : Receipt}
    {requestId network : JsString} {amount : ℚ} {Q : Except JsError Unit → Run → World → Prop}
    (herror : ∀ e, Q (.error e) run d)
    (hok : r.network = network → r.amountAtomic = amount → Q (.ok ()) run d) :
    (validateReceipt r requestId network amount).wp Φ Q run d := by
  unfold validateReceipt
  rw [wp_bind, wp_self]
  simp only
  rw [wp_bind]
  refine wp_refuse (fun _ => herror _) fun hfor => ?_
  simp only
  refine wp_refuse (fun _ => herror _) fun _ => ?_
  obtain ⟨-, -, hnetwork, -, hamount⟩ := not_not.1 hfor
  exact hok hnetwork hamount

/-- The run is still the one that the payment was worked out for. -/
structure SameJob (run₀ run : Run) : Prop where
  id : run.id = run₀.id
  repos : run.repos = run₀.repos
  mandate : run.mandate = run₀.mandate
  data : run.dataSpentAtomic = run₀.dataSpentAtomic

theorem Ready.quiet_sameJob {stage : Stage} (run₀ : Run) :
    Quiet P fun run d => Ready P recs x stage run d ∧ SameJob run₀ run :=
  Ready.quiet.and (p := fun run _ => SameJob run₀ run)
    (fun _ _ h => ⟨h.id, h.repos, h.mandate, h.data⟩) fun _ h => h

/-- What the first payment for data comes to. -/
theorem first_amount {p : Provider} (h : Affordable (P.withFile env) run p)
    (hzero : run.dataSpentAtomic = 0) :
    (P.withFile env).sum run.dataSpentAtomic
        ((P.withFile env).amount p.unitPriceAtomic run.repos.length) =
      (P.withFile env).amount p.unitPriceAtomic run.repos.length := by
  have hvalid := h.valid
  rw [hzero] at hvalid ⊢
  simp only [validQuote, Bool.and_eq_true, decide_eq_true_eq] at hvalid
  obtain ⟨⟨⟨⟨⟨-, hprice⟩, hpos⟩, -⟩, -⟩, hsafe⟩ := hvalid
  have hround := P.arithmetic.round_product hprice hpos hsafe
  rw [add_zero] at hround
  rw [Context.sum, zero_add]
  exact hround

/-- A run whose data was paid for. -/
theorem During.bought {run₀ : Run} {p : Provider} {evidence : List RepoEvidence}
    {receipt : Receipt} (h : During P recs x run d) (hx : Marked recs x)
    (hjob : SameJob run₀ run) (hearly : run.stage.early) (hmandate : run.mandate = x.run.mandate)
    (happroval : run.approval = none) (hafford : Affordable (P.withFile env) run₀ p)
    (hnetwork : receipt.network = hedera)
    (hamount : receipt.amountAtomic =
      (P.withFile env).amount p.unitPriceAtomic run₀.repos.length) :
    During P recs x { run with
      evidence := evidence, receipts := run.receipts ++ [receipt]
      dataSpentAtomic := (P.withFile env).sum run.dataSpentAtomic
        ((P.withFile env).amount p.unitPriceAtomic run₀.repos.length)
      stage := .report } d := by
  have hunspent := h.accounts.unspent hearly
  have hunpaid := h.accounts.unpaid hearly
  have hsum := first_amount hafford (hjob.data ▸ hunspent.1)
  have hbudget := hafford.budget
  rw [← hjob.data, ← hjob.mandate] at hbudget
  rw [← hjob.data] at hsum
  have hlate : ¬ Stage.report.early := by
    rintro (h | h | h) <;> cases h
  refine ⟨h.inv, h.records, ⟨?_, ?_, hbudget, h.accounts.verificationBudget, fun he => (hlate he).elim,
    fun a ha => ?_, fun ha => absurd happroval ha, h.accounts.priced⟩, ?_⟩
  · rw [@paidOn_append run _ _ rfl, if_pos hnetwork, hamount, ← h.accounts.data, hunspent.1,
      zero_add]
    rw [hunspent.1] at hsum
    exact hsum
  · rw [@paidOn_append run _ _ rfl, if_neg fun ha => hedera_ne_arc (hnetwork.symm.trans ha),
      add_zero]
    exact h.accounts.verification
  · rw [happroval] at ha
    cases ha
  · refine ⟨h.evolves.id, h.evolves.receipts.trans (List.prefix_append _ _), ?_,
      fun hfinal => absurd hfinal hx.going, h.evolves.mandate, Or.inr ⟨hmandate, ?_⟩,
      h.evolves.verification⟩
    · have hnil := h.evolves.evidence
      rw [hunpaid.2, List.prefix_nil] at hnil
      rw [hnil]
      exact List.nil_prefix
    · rw [← hmandate]
      exact hbudget

/-- Logging before the payment, perhaps. -/
theorem Ready.wp_reroute {run₀ : Run} {rerouted : Prop} [Decidable rerouted] {actor : Actor}
    {kind : Kind} {title detail : JsString} (h : Ready P recs x .purchase run d)
    (hjob : SameJob run₀ run) {Q : Except JsError Unit → Run → World → Prop}
    (hQ : ∀ run d, Ready P recs x .purchase run d → SameJob run₀ run → Q (.ok ()) run d) :
    (onlyIf rerouted (log (P.withFile env) actor kind title detail)).wp (spending P).spec Q run d := by
  refine wp_onlyIf (fun _ => ?_) fun _ => hQ run d h hjob
  refine wp_mono ((Ready.quiet_sameJob run₀).wp_log ⟨h, hjob⟩) ?_
  rintro r run d ⟨rfl, h, hjob⟩
  exact hQ run d h hjob

theorem Ready.payForData {p : Provider} (h : Ready P recs x .purchase run d) (hx : Marked recs x)
    (hafford : Affordable (P.withFile env) run p) :
    (payForData (P.withFile env) p).wp (spending P).spec (Done P recs x) run d := by
  have hearly : Stage.purchase.early := Or.inr (Or.inr rfl)
  unfold Runs.payForData
  rw [wp_bind, wp_self]
  simp only
  rw [wp_bind]
  refine h.wp_reroute (show SameJob run run from ⟨rfl, rfl, rfl, rfl⟩) fun run₁ d h hjob => ?_
  simp only
  rw [wp_bind, wp_modify]
  simp only
  rw [wp_bind]
  have h : Ready P recs x .purchase { run₁ with selectedProvider := some p.id } d :=
    h.forward (h.forward_iff rfl (fun _ => hearly) (by decide)) rfl rfl
  have hjob : SameJob run { run₁ with selectedProvider := some p.id } :=
    ⟨hjob.id, hjob.repos, hjob.mandate, hjob.data⟩
  refine wp_mono ((Ready.quiet_sameJob run).wp_log ⟨h, hjob⟩) ?_
  rintro r run₂ d ⟨rfl, h, hjob⟩
  simp only
  rw [wp_bind]
  have hstage : run₂.stage.early := h.stage ▸ hearly
  refine h.during.wp_call hx (o := .purchaseData _) (c := .purchaseData _) (fun _ _ h => h)
    ?_ (fun _ => h.opened.data hstage) (fun hv => by cases hv) fun r hd => ?_
  · exact hjob.id.symm
  cases r with
  | error e => exact hd
  | ok result =>
    simp only
    rw [wp_bind]
    refine wp_validateReceipt (fun _ => hd) fun hnetwork hamount => ?_
    simp only
    rw [wp_bind]
    refine wp_refuse (fun _ => hd) fun _ => ?_
    simp only
    rw [wp_bind, wp_modify]
    refine wp_log_done ⟨hd.bought hx hjob hstage h.mandate h.approval hafford hnetwork hamount,
      fun _ => ⟨fun hearly => ?_, fun _ => ?_⟩⟩
    · rcases hearly with h | h | h <;> cases h
    · have hverification := h.opened.verification (h.stage ▸ by decide)
      refine ⟨(verifications_call (c := .purchaseData _)).trans hverification.1, ?_⟩
      have hne : result.2.network ≠ arc := fun ha => hedera_ne_arc (hnetwork.symm.trans ha)
      rw [Run.receiptsOn, (h.during.accounts.unpaid hstage).1, List.nil_append]
      exact List.filter_cons_of_neg (by simpa using hne)

/-- The stage `purchase` with the providers, whichever they are. -/
def purchaseFrom (C : Context) : Engine Unit := do
  let run ← self
  match ← findApproved C run run.eligible with
  | some approved => Runs.payForData C approved
  | none =>
    match run.eligible with
    | [] => fail "No approved provider is available."
    | first :: _ => do
      let assessment ← assessQuote C run.mandate first run.repos.length run.dataSpentAtomic
      Runs.requestApproval C first assessment.reason

theorem Ready.purchaseStage (h : Ready P recs x .purchase run d) (hx : Marked recs x) :
    (purchaseStage (P.withFile env)).wp (spending P).spec (Done P recs x) run d := by
  have hearly : Stage.purchase.early := Or.inr (Or.inr rfl)
  unfold Runs.purchaseStage
  rw [wp_bind, wp_self]
  simp only
  rw [wp_bind]
  suffices hrest : ∀ run d, Ready P recs x .purchase run d →
      (purchaseFrom (P.withFile env)).wp (spending P).spec (Done P recs x) run d by
    refine wp_onlyIf (fun _ => ?_) fun _ => hrest run d h
    rw [wp_bind]
    refine h.wp_call hx (o := .discover run.id) (c := .discover run.id) (fun _ _ h => h) rfl rfl rfl
      fun r d h => ?_
    cases r with
    | error e => exact h.during
    | ok providers =>
      refine wp_modify.2 (hrest _ d (h.forward (h.forward_iff ?_ (fun _ => hearly) (by decide)) ?_ ?_))
      · rfl
      · rfl
      · rfl
  intro run d h
  unfold purchaseFrom
  rw [wp_bind, wp_self]
  simp only
  rw [wp_bind]
  refine wp_findApproved h.during.inv fun approved happroved => ?_
  simp only
  cases approved with
  | some p => exact h.payForData hx (happroved p rfl)
  | none =>
    simp only
    split
    · exact wp_throw.2 h.during
    · rw [wp_bind]
      refine wp_assessQuote h.during.inv fun assessment _ => ?_
      exact h.requestApproval hx

/-! ### The payment for the verification -/

/-- The price of a verification is not rounded. -/
theorem round_verificationPrice (A : Rounding) {m : Mandate}
    (h : ∀ service, m.verificationService = some service → service.priceAtomic ≤ 1000000) :
    A.round m.verificationPrice = m.verificationPrice := by
  have hnat : ∀ n : ℕ, n ≤ 1000000 → A.round (n : ℚ) = n := fun n hn => by
    have hround := A.round_int n (by omega) (by omega)
    simpa using hround
  unfold Mandate.verificationPrice
  split
  · exact hnat 50000 (by decide)
  · rename_i service hservice
    exact hnat _ (h service hservice)

/-- A run whose verification was paid for. -/
theorem During.verified {receipt : Receipt} (h : During P recs x run d) (hx : Marked recs x)
    (hstage : run.stage = .verification) (hmandate : run.mandate = x.run.mandate)
    (happroval : run.approval = none) (hnone : run.receiptsOn arc = [])
    (hbudget : (P.withFile env).sum run.verificationSpentAtomic run.mandate.verificationPrice ≤
      run.mandate.verificationBudgetAtomic)
    (hnetwork : receipt.network = arc) (hamount : receipt.amountAtomic = run.mandate.verificationPrice) :
    During P recs x { run with
      receipts := run.receipts ++ [receipt]
      verificationSpentAtomic := (P.withFile env).sum run.verificationSpentAtomic
        run.mandate.verificationPrice } d := by
  have hlate : ¬ run.stage.early := by
    rw [hstage]
    rintro (h | h | h) <;> cases h
  have hpaid : run.paidOn arc = 0 := by
    rw [Run.paidOn, hnone]
    rfl
  have hzero : run.verificationSpentAtomic = 0 := h.accounts.verification.trans hpaid
  refine ⟨h.inv, h.records, ⟨?_, ?_, h.accounts.dataBudget, hbudget, fun he => (hlate he).elim,
    fun a ha => ?_, fun ha => absurd happroval ha, h.accounts.priced⟩, ?_⟩
  · rw [@paidOn_append run _ _ rfl, if_neg fun ha => hedera_ne_arc (ha.symm.trans hnetwork),
      add_zero]
    exact h.accounts.data
  · rw [@paidOn_append run _ _ rfl, if_pos hnetwork, hamount, hpaid, zero_add]
    show (P.withFile env).sum run.verificationSpentAtomic run.mandate.verificationPrice = _
    rw [hzero, Context.sum, zero_add]
    exact round_verificationPrice P.arithmetic h.accounts.priced
  · rw [happroval] at ha
    cases ha
  · exact ⟨h.evolves.id, h.evolves.receipts.trans (List.prefix_append _ _), h.evolves.evidence,
      fun hfinal => absurd hfinal hx.going, h.evolves.mandate, h.evolves.data,
      Or.inr ⟨hmandate, hmandate ▸ hbudget⟩⟩

/-- Changes at the end of a run. -/
theorem During.finish (h : During P recs x run d) (hx : Marked recs x)
    (happroval : run.approval = none) (report : Option Report)
    (stage : Stage) (hstage : ¬ stage.early) (status : RunStatus) :
    During P recs x { run with report := report, stage := stage, status := status } d := by
  obtain ⟨h₁, h₂, h₃, h₄, -, h₆, -, h₈⟩ := h.accounts
  obtain ⟨e₁, e₂, e₃, -, e₅, e₆, e₇⟩ := h.evolves
  exact ⟨h.inv, h.records, ⟨h₁, h₂, h₃, h₄, fun he => (hstage he).elim,
    fun a ha => absurd (happroval.symm.trans ha) (by simp), fun ha => absurd happroval ha, h₈⟩,
    ⟨e₁, e₂, e₃, fun hfinal => absurd hfinal hx.going, e₅, e₆, e₇⟩⟩

theorem Ready.verifyReport (h : Ready P recs x .verification run d) (hx : Marked recs x) :
    (verifyReport (P.withFile env)).wp (spending P).spec (Done P recs x) run d := by
  have hlate : ¬ Stage.verification.early := by
    rintro (h | h | h) <;> cases h
  have hlast : ¬ Stage.complete.early := by
    rintro (h | h | h) <;> cases h
  have hopen := h.opened.verification (h.stage ▸ by decide)
  unfold Runs.verifyReport
  rw [wp_bind, wp_self]
  simp only
  rw [wp_bind]
  refine wp_refuse (fun _ => h.during) fun hbudget => ?_
  simp only
  split
  · exact wp_throw.2 h.during
  · rename_i report _
    rw [wp_bind]
    refine h.during.wp_call hx (o := .verify _) (c := .verify _) (fun _ _ h => h) rfl
      (fun hb => by cases hb) (fun _ => hopen.1) fun r hd => ?_
    cases r with
    | error e => exact hd
    | ok result =>
      simp only
      rw [wp_bind]
      refine wp_validateReceipt (fun _ => hd) fun hnetwork hamount => ?_
      simp only
      rw [wp_bind, wp_modify]
      have hd := hd.verified hx h.stage h.mandate h.approval hopen.2 (not_lt.1 hbudget)
        hnetwork hamount
      have happroval := h.approval
      simp only
      rw [wp_bind]
      refine wp_refuse (fun _ => hd) fun _ => ?_
      simp only
      rw [wp_bind, wp_modify]
      have hd := hd.finish hx happroval (some { report with
        checks := checkReport (P.withFile env) report ++ result.2.getD []
        verified := (checkReport (P.withFile env) report ++ result.2.getD []).all Check.passed })
        run.stage (h.stage ▸ hlate) run.status
      simp only
      rw [wp_bind]
      refine wp_refuse (fun _ => hd) fun _ => ?_
      simp only
      rw [wp_bind, wp_modify]
      exact wp_log_done ⟨hd.finish hx happroval _ .complete hlast .completed, fun hfinal =>
        absurd (Or.inl rfl) hfinal⟩

/-! ### The actions -/

theorem Ready.advanceStage {stage : Stage} (h : Ready P recs x stage run d) (hx : Marked recs x) :
    (advanceStage (P.withFile env)).wp (spending P).spec (Done P recs x) run d := by
  unfold Runs.advanceStage
  rw [wp_bind, wp_self]
  simp only
  rw [wp_bind]
  refine wp_isPast h.during.inv fun expired => ?_
  simp only
  rw [wp_bind]
  refine wp_refuse (fun _ => h.during) fun _ => ?_
  simp only [h.stage]
  cases stage with
  | mandate => exact h.acceptMandate
  | discovery => exact h.discoverServices hx
  | purchase => exact h.purchaseStage hx
  | report => exact h.draftReport hx
  | verification => exact h.verifyReport hx
  | complete => exact wp_pure.2 ⟨h.during, fun _ => h.opened⟩

theorem During.stopRun (h : During P recs x run d) {error : JsError} :
    (stopRun (P.withFile env) error).wp (spending P).spec (fun _ => Ended P recs x)
      run d := by
  unfold Runs.stopRun
  rw [wp_bind, wp_modify]
  refine wp_log_ended ⟨⟨h.inv, h.records, h.accounts.failed _, h.evolves.failed _⟩, fun hfinal => ?_⟩
  exact absurd (Or.inr rfl) hfinal

/-- At the start of an action: the record carries the marker. -/
structure Start (P : Server) (recs : List StoredRun) (x : StoredRun) (d : World) : Prop where
  inv : Inv P d
  records : d.records = recs
  mem : x ∈ recs
  inFlight : x.inFlight ≠ none
  opened : ¬ x.run.status.final → Open d x.run

theorem Start.during (h : Start P recs x d) : During P recs x x.run d :=
  ⟨h.inv, h.records, h.inv.accounts x (h.records ▸ h.mem), Evolves.refl _⟩

theorem Start.ended (h : Start P recs x d) : Ended P recs x x.run d := ⟨h.during, h.opened⟩

theorem wp_requireLiveRun {Φ : Prog.Spec World Effect Answer JsError}
    {Q : Except JsError Unit → Run → World → Prop} (herror : ∀ e, Q (.error e) run d)
    (hok : run.mode = .live → Q (.ok ()) run d) : requireLiveRun.wp Φ Q run d := by
  unfold requireLiveRun
  rw [wp_bind, wp_self]
  exact wp_refuse (fun _ => herror _) fun hlive => hok (not_not.1 hlive)

theorem Start.advanceRun (h : Start P recs x d) :
    (advanceRun (P.withFile env)).wp (spending P).spec (fun _ => Ended P recs x)
      x.run d := by
  unfold Runs.advanceRun
  rw [wp_bind]
  refine wp_requireLiveRun (fun _ => h.ended) fun _ => ?_
  simp only
  rw [wp_bind, wp_self]
  refine wp_ite (fun _ => wp_pure.2 h.ended) fun hrests => ?_
  have hgoing : ¬ x.run.status.final := fun hfinal => hrests (hfinal.imp id Or.inl)
  have happroval : x.run.approval = none := by
    by_contra hne
    rcases h.during.accounts.pending hne with hs | hs
    · exact hrests (Or.inr (Or.inr (Or.inr hs)))
    · exact hrests (Or.inr (Or.inl hs))
  have hopen := h.opened hgoing
  have hready : Ready P recs x x.run.stage { x.run with status := .running } d := by
    refine ⟨h.during.forward ⟨rfl, rfl, rfl, rfl, rfl, rfl, rfl, rfl, rfl, fun h => h, fun h => h,
      fun ha => absurd happroval ha, fun hfinal => absurd hfinal hgoing⟩, rfl, rfl, rfl, ?_⟩
    exact ⟨hopen.data, hopen.verification⟩
  rw [wp_bind, wp_modify]
  simp only
  rw [wp_tryCatch]
  refine wp_mono (hready.advanceStage ⟨h.mem, h.inFlight, hgoing⟩) fun r run d hr => ?_
  cases r with
  | ok u => exact hr
  | error e => exact During.stopRun hr

theorem Start.applyShock (h : Start P recs x d) {liveQuotes : Option (List Provider)} :
    (applyShock (P.withFile env) liveQuotes).wp (spending P).spec (fun _ => Ended P recs x)
      x.run d := by
  unfold Runs.applyShock
  rw [wp_bind]
  refine wp_requireLiveRun (fun _ => h.ended) fun _ => ?_
  simp only
  rw [wp_bind, wp_self]
  simp only
  rw [wp_bind]
  refine wp_refuse (fun _ => h.ended) fun _ => ?_
  simp only
  rw [wp_bind]
  refine wp_refuse (fun _ => h.ended) fun _ => ?_
  simp only
  rw [wp_bind, wp_modify]
  have hf : Forward x.run { x.run with
      providers := liveQuotes.getD [], shockApplied := true } :=
    ⟨rfl, rfl, rfl, rfl, rfl, rfl, rfl, rfl, rfl, fun h => h, fun h => h,
      h.during.accounts.pending, fun h => h⟩
  exact wp_log_ended ⟨h.during.forward hf, fun hfinal => (h.opened hfinal).forward hf⟩

theorem Start.pauseRun (h : Start P recs x d) :
    (pauseRun (P.withFile env)).wp (spending P).spec (fun _ => Ended P recs x)
      x.run d := by
  unfold Runs.pauseRun
  rw [wp_bind]
  refine wp_requireLiveRun (fun _ => h.ended) fun _ => ?_
  simp only
  rw [wp_bind, wp_self]
  simp only
  rw [wp_bind]
  refine wp_refuse (fun _ => h.ended) fun hstatus => ?_
  simp only [List.mem_cons, List.not_mem_nil, or_false, not_or] at hstatus ⊢
  obtain ⟨hfailed, hcompleted, hawaiting⟩ := hstatus
  have hgoing : ¬ x.run.status.final := fun hfinal => hfinal.elim hcompleted hfailed
  rw [wp_bind, wp_modify]
  have hf : Forward x.run { x.run with
      status := if x.run.status = .paused then .running else .paused } :=
    ⟨rfl, rfl, rfl, rfl, rfl, rfl, rfl, rfl, rfl, fun h => h, fun h => h,
      fun ha => (h.during.accounts.pending ha).elim (absurd · hawaiting) (absurd · hfailed),
      fun hfinal => absurd hfinal hgoing⟩
  exact wp_log_ended ⟨h.during.forward hf, fun _ => (h.opened hgoing).forward hf⟩

/-- The signature of the configured controller. -/
theorem wp_checkSignature {Φ : Prog.Spec World Effect Answer JsError} {a : ApprovalRequest}
    {signature : Option JsString} {Q : Except JsError Unit → Run → World → Prop}
    (herror : ∀ e, Q (.error e) run d)
    (hok : ∀ address signature, env.LEDGER_CONTROLLER_ADDRESS = some address →
      P.verifyMessage address a.message signature = .ok true → Q (.ok ()) run d) :
    (checkSignature (P.withFile env) a signature).wp Φ Q run d := by
  unfold checkSignature
  rw [wp_bind]
  refine wp_refuse (fun _ => herror _) fun _ => ?_
  simp only
  split
  · exact wp_throw.2 (herror _)
  · rename_i address signed hsigned
    have haddress : env.LEDGER_CONTROLLER_ADDRESS = some address := by
      unfold controllerSignature at hsigned
      split at hsigned
      · rename_i configured _ hconfigured
        split_ifs at hsigned
        obtain rfl : configured = address := congrArg Prod.fst (Option.some.inj hsigned)
        exact hconfigured
      · cases hsigned
    rw [wp_bind, wp_ofExcept]
    cases hverify : (P.withFile env).verifyMessage address a.message signed with
    | error e => exact herror e
    | ok verified =>
      refine wp_refuse (fun _ => herror _) fun htrue => hok address signed haddress ?_
      rw [Bool.not_eq_false] at htrue
      exact htrue ▸ hverify

theorem Start.approveRun (h : Start P recs x d) (henv : P.environments env)
    {signature : Option JsString} :
    (approveRun (P.withFile env) signature).wp (spending P).spec (fun _ => Ended P recs x)
      x.run d := by
  unfold Runs.approveRun
  rw [wp_bind]
  refine wp_requireLiveRun (fun _ => h.ended) fun hlive => ?_
  simp only
  rw [wp_bind, wp_self]
  simp only
  split
  · exact wp_throw.2 h.ended
  · rename_i a ha
    rw [wp_bind]
    refine wp_refuse (fun _ => h.ended) fun hstatus => ?_
    simp only
    rw [wp_bind]
    refine wp_isPast h.inv fun expired => ?_
    simp only
    rw [wp_bind]
    refine wp_refuse (fun _ => h.ended) fun _ => ?_
    simp only
    rw [wp_bind]
    refine wp_refuse (fun _ => h.ended) fun hversion => ?_
    simp only
    rw [wp_bind]
    refine wp_onlyIf (fun _ => ?_) fun hmode => absurd hlive hmode
    refine wp_checkSignature (fun _ => h.ended) fun address signed haddress hverify => ?_
    simp only
    rw [wp_bind]
    refine wp_now h.inv fun time => ?_
    simp only
    rw [wp_bind, wp_modify]
    -- All the checks are passed: the mandate becomes the one that the approval proposed.
    have hawaiting : x.run.status = .awaitingApproval := not_not.1 hstatus
    have hgoing : ¬ x.run.status.final := by
      rw [hawaiting]
      rintro (hs | hs) <;> cases hs
    obtain ⟨p, expiry, signerMode, nonce, expiresAt, hmandate, -⟩ := h.during.accounts.proposed a ha
    obtain ⟨h₁, h₂, h₃, h₄, h₅, -, -, h₈⟩ := h.during.accounts
    have hopen := h.opened hgoing
    apply wp_log_ended
    refine ⟨⟨h.inv, h.records, ⟨h₁, h₂, ?_, ?_, h₅, fun b hb => ?_, fun hb => (hb rfl).elim, ?_⟩,
      ⟨rfl, List.prefix_rfl, List.prefix_rfl, fun hfinal => absurd hfinal hgoing, Or.inr ?_,
        Or.inl rfl, Or.inl rfl⟩⟩, fun _ => ⟨hopen.data, hopen.verification⟩⟩
    · show x.run.dataSpentAtomic ≤ a.proposedMandate.dataBudgetAtomic
      rw [hmandate]
      exact h₃.trans (le_max_left _ _)
    · show x.run.verificationSpentAtomic ≤ a.proposedMandate.verificationBudgetAtomic
      rw [hmandate]
      exact h₄
    · cases hb
    · show ∀ service, a.proposedMandate.verificationService = some service → _
      rw [hmandate]
      exact h₈
    · exact ⟨env, a, address, signed, henv, ha, hawaiting, haddress, hverify, rfl, not_not.1 hversion⟩

/-- **What an action does to the accounts of its run.** -/
theorem Start.action (h : Start P recs x d) (henv : P.environments env) (a : RunAction) :
    (a.run (P.withFile env)).wp (spending P).spec (fun _ => Ended P recs x)
      x.run d := by
  cases a with
  | advance => exact h.advanceRun
  | approve signature => exact h.approveRun henv
  | pause => exact h.pauseRun
  | shock liveQuotes => exact h.applyShock

end Runs

end Obolos
