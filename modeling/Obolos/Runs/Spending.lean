import Obolos.Runs.EventLog
import Obolos.Crash.Sequential
import Mathlib.Algebra.BigOperators.Group.List.Basic
import Mathlib.Algebra.Order.Ring.Rat
import Mathlib.Data.List.Forall2

/-!
# What a run spends

The accounts of a run (`Accounts`): what it has spent is what its receipts say, within the budgets
of its mandate, and a pending approval is about a mandate that the run has asked for.  `Evolves`
says how one stored version of a run follows from another.

`Inv` is the invariant of the file and of the calls of the gateway; `Allowed` what an effect of
the server may do to them.
-/

namespace Obolos

namespace Runs

open Json

/-! ### Rounding -/

/-- A product of two positive integers that is a safe integer after rounding is not rounded. -/
theorem Rounding.round_product (A : Rounding) {p : ℚ} {n : ℕ} (hp : isSafeInteger p = true)
    (hpos : 0 < p) (h : isSafeInteger (A.round (A.round (p * n) + 0)) = true) :
    A.round (A.round (p * n) + 0) = A.round (p * n) := by
  simp only [isSafeInteger, Bool.and_eq_true, decide_eq_true_eq] at hp
  have hint : ((p.num * n : ℤ) : ℚ) = p * n := by
    rw [Int.cast_mul, Int.cast_natCast, Rat.coe_int_num_of_den_eq_one hp.1]
  have hnum : 0 ≤ p.num * n := Int.mul_nonneg (Rat.num_nonneg.2 hpos.le) (Int.natCast_nonneg n)
  rw [add_zero] at h ⊢
  rw [← hint] at h ⊢
  by_cases hbig : p.num * n ≤ 2 ^ 53
  · rw [A.round_int _ (by omega) hbig]
    exact A.round_int _ (by omega) hbig
  · -- a larger product stays too large
    have hround : A.round ((2 ^ 53 : ℤ) : ℚ) = ((2 ^ 53 : ℤ) : ℚ) :=
      A.round_int _ (by norm_num) le_rfl
    have hle : ((2 ^ 53 : ℤ) : ℚ) ≤ ((p.num * n : ℤ) : ℚ) := by
      exact_mod_cast (not_le.1 hbig).le
    have hle₁ := A.mono hle
    rw [hround] at hle₁
    have hle₂ := A.mono hle₁
    rw [hround] at hle₂
    simp only [isSafeInteger, Bool.and_eq_true, decide_eq_true_eq] at h
    have hsafe : A.round (A.round ((p.num * n : ℤ) : ℚ)) ≤ ((2 ^ 53 - 1 : ℤ) : ℚ) := by
      rw [← Rat.coe_int_num_of_den_eq_one h.1]
      exact_mod_cast h.2.2
    have hlt : ((2 ^ 53 - 1 : ℤ) : ℚ) < ((2 ^ 53 : ℤ) : ℚ) := by norm_num
    exact absurd (hle₂.trans hsafe) (not_le.2 hlt)

/-! ### The accounts of a run -/

/-- Nothing happens to such a run any more. -/
def RunStatus.final (status : RunStatus) : Prop := status = .completed ∨ status = .failed

/-- The stages before the data is paid for. -/
def Stage.early (stage : Stage) : Prop :=
  stage = .mandate ∨ stage = .discovery ∨ stage = .purchase

/-- The receipts of a network. -/
def Run.receiptsOn (run : Run) (network : JsString) : List Receipt :=
  run.receipts.filter fun r => r.network = network

/-- What the receipts of a network add up to. -/
def Run.paidOn (run : Run) (network : JsString) : ℚ :=
  ((run.receiptsOn network).map Receipt.amountAtomic).sum

/-- The network the data is paid on. -/
def hedera : JsString := js "hedera:testnet"

/-- The network the verification is paid on. -/
def arc : JsString := js "arc:testnet"

/-- A server: the platform, and the environments that its processes are started with. -/
structure Server extends Platform where
  environments : ProcessEnv → Prop

/-- An environment without a controller. -/
def noEnv : ProcessEnv := ⟨none, none⟩

/-- A mandate that the run asked the controller for, with the message that is to be signed. -/
def Run.Proposed (P : Server) (run : Run) (message : JsString) (mandate : Mandate) : Prop :=
  ∃ p expiry signerMode nonce expiresAt, mandate = run.proposal (P.withFile noEnv) p expiry ∧
    message = approvalMessage (P.withFile noEnv) run signerMode nonce expiresAt mandate

/-- The accounts of a run are in order. -/
structure Accounts (P : Server) (run : Run) : Prop where
  /-- What was spent on data is what the receipts say. -/
  data : run.dataSpentAtomic = run.paidOn hedera
  verification : run.verificationSpentAtomic = run.paidOn arc
  dataBudget : run.dataSpentAtomic ≤ run.mandate.dataBudgetAtomic
  verificationBudget : run.verificationSpentAtomic ≤ run.mandate.verificationBudgetAtomic
  /-- Nothing is paid for before the purchase. -/
  unpaid : run.stage.early → run.receipts = [] ∧ run.evidence = []
  proposed : ∀ a, run.approval = some a → run.Proposed P a.message a.proposedMandate
  pending : run.approval ≠ none → run.status = .awaitingApproval ∨ run.status = .failed
  priced : ∀ service, run.mandate.verificationService = some service →
    service.priceAtomic ≤ 1000000

/-- The mandate changed by an approval that the configured controller signed. -/
def Approved (P : Server) (run run' : Run) : Prop :=
  ∃ (env : ProcessEnv) (a : ApprovalRequest) (address signature : JsString),
    P.environments env ∧ run.approval = some a ∧ run.status = .awaitingApproval ∧
      env.LEDGER_CONTROLLER_ADDRESS = some address ∧
        P.verifyMessage address a.message signature = .ok true ∧
          run'.mandate = a.proposedMandate ∧
            a.proposedMandate.version = run.mandate.version + 1

/-- How a stored version of a run follows from another. -/
structure Evolves (P : Server) (run run' : Run) : Prop where
  id : run'.id = run.id
  receipts : run.receipts <+: run'.receipts
  evidence : run.evidence <+: run'.evidence
  final : run.status.final → run'.status.final
  mandate : run'.mandate = run.mandate ∨ Approved P run run'
  data : run'.dataSpentAtomic = run.dataSpentAtomic ∨
    (run'.mandate = run.mandate ∧ run'.dataSpentAtomic ≤ run.mandate.dataBudgetAtomic)
  verification : run'.verificationSpentAtomic = run.verificationSpentAtomic ∨
    (run'.mandate = run.mandate ∧
      run'.verificationSpentAtomic ≤ run.mandate.verificationBudgetAtomic)

variable {P : Server} {run run' : Run}

theorem Evolves.refl (run : Run) : Evolves P run run :=
  ⟨rfl, List.prefix_rfl, List.prefix_rfl, fun h => h, Or.inl rfl, Or.inl rfl, Or.inl rfl⟩

/-- The events of a run play no part in its accounts. -/
theorem Accounts.logged (h : Accounts P run) (events : List AuditEvent) (updatedAt : JsString) :
    Accounts P { run with events := events, updatedAt := updatedAt } :=
  ⟨h.data, h.verification, h.dataBudget, h.verificationBudget, h.unpaid, h.proposed, h.pending,
    h.priced⟩

theorem Evolves.logged (h : Evolves P run run') (events : List AuditEvent) (updatedAt : JsString) :
    Evolves P run { run' with events := events, updatedAt := updatedAt } :=
  ⟨h.id, h.receipts, h.evidence, h.final, h.mandate, h.data, h.verification⟩

/-- A run that failed keeps its accounts. -/
theorem Accounts.failed (h : Accounts P run) (error : Option JsString) :
    Accounts P { run with status := .failed, error := error } :=
  ⟨h.data, h.verification, h.dataBudget, h.verificationBudget, h.unpaid, h.proposed,
    fun _ => Or.inr rfl, h.priced⟩

theorem Evolves.failed (h : Evolves P run run') (error : Option JsString) :
    Evolves P run { run' with status := .failed, error := error } :=
  ⟨h.id, h.receipts, h.evidence, fun _ => Or.inr rfl, h.mandate, h.data, h.verification⟩

/-- Before the purchase nothing has been spent. -/
theorem Accounts.unspent (h : Accounts P run) (hearly : run.stage.early) :
    run.dataSpentAtomic = 0 ∧ run.verificationSpentAtomic = 0 := by
  rw [h.data, h.verification, Run.paidOn, Run.paidOn, Run.receiptsOn, Run.receiptsOn,
    (h.unpaid hearly).1]
  exact ⟨rfl, rfl⟩

/-- A new run. -/
theorem accounts_created {C : Context} {input : RunInput} {id : JsString}
    (h : Created C input id run) :
    run.id = id ∧ Accounts P run ∧ run.stage = .mandate ∧ run.receipts = [] := by
  obtain ⟨hvalid, createdAt, expiresAt, eventId, timestamp, detail, updatedAt, rfl⟩ := h
  refine ⟨rfl, Accounts.logged ?_ _ _, rfl, rfl⟩
  have hnone : ∀ a, (none : Option ApprovalRequest) = some a → False := fun _ h => by cases h
  refine ⟨rfl, rfl, ?_, ?_, fun _ => ⟨rfl, rfl⟩, fun a h => (hnone a h).elim,
    fun h => absurd rfl h, ?_⟩
  · exact Nat.cast_nonneg (α := ℚ) (input.dataBudgetAtomic.getD 2000000)
  · exact Nat.cast_nonneg (α := ℚ) (input.verificationBudgetAtomic.getD 100000)
  · intro service hservice
    have hservice : input.verificationService = some service := hservice
    simp only [RunInput.valid, hservice, Option.all_some, VerificationService.valid,
      Bool.and_eq_true, decide_eq_true_eq] at hvalid
    exact hvalid.2.1.1.2.2

/-! ### The calls of the gateway -/

/-- A data purchase for a run. -/
def GatewayCall.buys (id : JsString) : GatewayCall → Bool
  | .purchaseData purchase => purchase.runId = id
  | _ => false

/-- A verification for a run. -/
def GatewayCall.verifies (id : JsString) : GatewayCall → Bool
  | .verify purchase => purchase.runId = id
  | _ => false

/-- How often `purchaseData` was started for a run. -/
def World.purchases (d : World) (id : JsString) : ℕ := d.calls.countP (GatewayCall.buys id)

/-- How often `verify` was started for a run. -/
def World.verifications (d : World) (id : JsString) : ℕ := d.calls.countP (GatewayCall.verifies id)

/-- The calls for a run. -/
def World.callsFor (d : World) (id : JsString) : List GatewayCall :=
  d.calls.filter fun c => c.runId = id

variable {d d' : World} {id : JsString} {c : GatewayCall}

theorem runId_of_buys (h : c.buys id = true) : c.runId = id := by
  cases c <;> simp_all [GatewayCall.buys, GatewayCall.runId]

theorem runId_of_verifies (h : c.verifies id = true) : c.runId = id := by
  cases c <;> simp_all [GatewayCall.verifies, GatewayCall.runId]

theorem purchases_call : (d.call c).purchases id = d.purchases id + (c.buys id).toNat := by
  simp only [World.purchases, World.call, List.countP_append, List.countP_cons, List.countP_nil]
  cases c.buys id <;> rfl

theorem verifications_call :
    (d.call c).verifications id = d.verifications id + (c.verifies id).toNat := by
  simp only [World.verifications, World.call, List.countP_append, List.countP_cons, List.countP_nil]
  cases c.verifies id <;> rfl

/-- A call for another run. -/
theorem counts_call_of_ne (h : c.runId ≠ id) :
    (d.call c).purchases id = d.purchases id ∧ (d.call c).verifications id = d.verifications id := by
  have hbuys : c.buys id = false := Bool.eq_false_iff.2 fun hb => h (runId_of_buys hb)
  have hverifies : c.verifies id = false := Bool.eq_false_iff.2 fun hv => h (runId_of_verifies hv)
  rw [purchases_call, verifications_call, hbuys, hverifies]
  exact ⟨rfl, rfl⟩

/-- Nobody was called for such a run. -/
theorem counts_eq_zero (h : ∀ c ∈ d.calls, c.runId ≠ id) :
    d.purchases id = 0 ∧ d.verifications id = 0 :=
  ⟨List.countP_eq_zero.2 fun c hc hb => h c hc (runId_of_buys hb),
    List.countP_eq_zero.2 fun c hc hv => h c hc (runId_of_verifies hv)⟩

/-! ### The invariant -/

/-- A run that may go on to a payment has not been paid for. -/
structure Open (d : World) (run : Run) : Prop where
  data : run.stage.early → d.purchases run.id = 0
  verification : run.stage ≠ .complete → d.verifications run.id = 0 ∧ run.receiptsOn arc = []

/-- The invariant of the file and the calls. -/
structure Inv (P : Server) (d : World) : Prop where
  ids : (d.records.map fun x => x.run.id).Nodup
  drawn : ∀ x ∈ d.records, x.run.id ∈ d.uuids
  accounts : ∀ x ∈ d.records, Accounts P x.run
  once : ∀ id, d.purchases id ≤ 1 ∧ d.verifications id ≤ 1
  going : ∀ x ∈ d.records, x.inFlight = none → ¬ x.run.status.final → Open d x.run
  owned : ∀ c ∈ d.calls, ∃ x ∈ d.records, x.run.id = c.runId

/-- A record and its next version. -/
def Step (P : Server) (x y : StoredRun) : Prop := y.owner = x.owner ∧ Evolves P x.run y.run

/-- What an effect of the server may do. -/
structure Allowed (P : Server) (d d' : World) : Prop where
  inv : Inv P d'
  records : ∃ olds news, d'.records = olds ++ news ∧ List.Forall₂ (Step P) d.records olds
  calls : ∃ more, d'.calls = d.calls ++ more ∧
    ∀ c ∈ more, ∃ x ∈ d.records, x.run.id = c.runId ∧ ¬ x.run.status.final

/-- The server is verified against this. -/
def spending (P : Server) : Sequential World Effect Answer JsError :=
  ⟨work, Inv P, Allowed P, fun _ _ _ h => h.inv⟩

theorem inv_empty : Inv P World.empty where
  ids := List.nodup_nil
  drawn _ h := (List.not_mem_nil h).elim
  accounts _ h := (List.not_mem_nil h).elim
  once _ := ⟨Nat.zero_le _, Nat.zero_le _⟩
  going _ h := (List.not_mem_nil h).elim
  owned _ h := (List.not_mem_nil h).elim

theorem step_refl (x : StoredRun) : Step P x x := ⟨rfl, Evolves.refl _⟩

theorem forall₂_step_refl (l : List StoredRun) : List.Forall₂ (Step P) l l :=
  List.forall₂_same.2 fun x _ => step_refl x

theorem Allowed.refl (h : Inv P d) : Allowed P d d :=
  ⟨h, ⟨_, [], (List.append_nil _).symm, forall₂_step_refl _⟩,
    ⟨[], (List.append_nil _).symm, fun _ hc => (List.not_mem_nil hc).elim⟩⟩

/-- Drawing an identifier. -/
theorem Inv.draw (h : Inv P d) (id : JsString) : Inv P { d with uuids := id :: d.uuids } :=
  ⟨h.ids, fun x hx => List.mem_cons_of_mem _ (h.drawn x hx), h.accounts, h.once,
    fun x hx hfree hfinal => ⟨(h.going x hx hfree hfinal).data, (h.going x hx hfree hfinal).verification⟩,
    h.owned⟩

theorem Allowed.draw (h : Inv P d) (id : JsString) :
    Allowed P d { d with uuids := id :: d.uuids } :=
  ⟨h.draw id, (Allowed.refl h).records, (Allowed.refl h).calls⟩

/-- Two records of one run are the same. -/
theorem Inv.unique (h : Inv P d) {x y : StoredRun} (hx : x ∈ d.records) (hy : y ∈ d.records)
    (hid : x.run.id = y.run.id) : x = y := List.inj_on_of_nodup_map h.ids hx hy hid

/-- A call for a run whose operation is going on. -/
theorem Allowed.call (h : Inv P d) {x : StoredRun} (hx : x ∈ d.records)
    (hflight : x.inFlight ≠ none) (hfinal : ¬ x.run.status.final) (hid : c.runId = x.run.id)
    (hbuys : c.buys x.run.id = true → d.purchases x.run.id = 0)
    (hverifies : c.verifies x.run.id = true → d.verifications x.run.id = 0) :
    Allowed P d (d.call c) := by
  refine ⟨⟨h.ids, h.drawn, h.accounts, fun id => ?_, fun y hy hfree hyfinal => ?_,
    fun c' hc' => ?_⟩, (Allowed.refl h).records, ⟨[c], rfl, fun c' hc' => ?_⟩⟩
  · obtain ⟨hp, hv⟩ := h.once id
    by_cases hne : c.runId = id
    · obtain rfl : id = x.run.id := hne.symm.trans hid
      rw [purchases_call, verifications_call]
      constructor
      · cases hb : c.buys x.run.id with
        | false => exact hp
        | true => rw [hbuys hb]; exact le_rfl
      · cases hb : c.verifies x.run.id with
        | false => exact hv
        | true => rw [hverifies hb]; exact le_rfl
    · rw [(counts_call_of_ne hne).1, (counts_call_of_ne hne).2]
      exact ⟨hp, hv⟩
  · have hne : c.runId ≠ y.run.id := fun hc =>
      hflight (h.unique hx hy (hid.symm.trans hc) ▸ hfree)
    have hopen := h.going y hy hfree hyfinal
    exact ⟨fun hearly => (counts_call_of_ne hne).1.trans (hopen.data hearly), fun hstage =>
      ⟨(counts_call_of_ne hne).2.trans (hopen.verification hstage).1,
        (hopen.verification hstage).2⟩⟩
  · rcases List.mem_append.1 hc' with hc' | hc'
    · exact h.owned c' hc'
    · rw [List.mem_singleton.1 hc']
      exact ⟨x, hx, hid.symm⟩
  · rw [List.mem_singleton.1 hc']
    exact ⟨x, hx, hid.symm, hfinal⟩

/-! ### Writing the file -/

/-- A record as it is read: only the events may differ. -/
def Similar (x y : StoredRun) : Prop :=
  ∃ events, y = { x with run := { x.run with events := events } }

theorem similar_reread (layout : Json → Json) (l : List StoredRun) :
    List.Forall₂ Similar l (l.map (StoredRun.reread layout)) := by
  induction l with
  | nil => exact .nil
  | cons x l ih => exact .cons ⟨_, rfl⟩ ih

theorem similar_refl (l : List StoredRun) : List.Forall₂ Similar l l :=
  List.forall₂_same.2 fun x _ => ⟨x.run.events, rfl⟩

/-- One entry of a list that corresponds to another is replaced. -/
theorem forall₂_replace {α β : Type} {R S : α → β → Prop} {l : List α} {before after : List β}
    {x y : β} (h : List.Forall₂ R l (before ++ x :: after)) (hS : ∀ a b, R a b → S a b)
    (hy : ∀ a, R a x → S a y) : List.Forall₂ S l (before ++ y :: after) := by
  induction before generalizing l with
  | nil =>
    cases h with
    | cons ha hl => exact .cons (hy _ ha) (hl.imp hS)
  | cons b before ih =>
    cases h with
    | cons ha hl => exact .cons (hS _ _ ha) (ih hl)

theorem exists_left {α β : Type} {R : α → β → Prop} {l : List α} {l' : List β}
    (h : List.Forall₂ R l l') {b : β} (hb : b ∈ l') : ∃ a ∈ l, R a b := by
  induction h with
  | nil => exact (List.not_mem_nil hb).elim
  | cons hab _ ih =>
    rcases List.mem_cons.1 hb with rfl | hb
    · exact ⟨_, by simp, hab⟩
    · obtain ⟨a, ha, hab⟩ := ih hb
      exact ⟨a, by simp [ha], hab⟩

theorem exists_right {α β : Type} {R : α → β → Prop} {l : List α} {l' : List β}
    (h : List.Forall₂ R l l') {a : α} (ha : a ∈ l) : ∃ b ∈ l', R a b := by
  obtain ⟨b, hb, hab⟩ := exists_left h.flip ha
  exact ⟨b, hb, hab⟩

/-- The next version of a record, with what the invariant needs to know of it. -/
structure Next (P : Server) (d : World) (x y : StoredRun) : Prop where
  step : Step P x y
  accounts : Accounts P y.run
  going : y.inFlight = none → ¬ y.run.status.final → Open d y.run

/-- A record that is only read and written back. -/
theorem Next.of_similar (h : Inv P d) {x y : StoredRun} (hx : x ∈ d.records) (hxy : Similar x y) :
    Next P d x y := by
  obtain ⟨events, rfl⟩ := hxy
  refine ⟨⟨rfl, (Evolves.refl x.run).logged events x.run.updatedAt⟩,
    (h.accounts x hx).logged events x.run.updatedAt, fun hfree hfinal => ?_⟩
  have hopen := h.going x hx hfree hfinal
  exact ⟨hopen.data, hopen.verification⟩

/-- Writing the next versions of the records, and perhaps new records. -/
theorem Allowed.write (h : Inv P d) {olds news : List StoredRun}
    (hnext : List.Forall₂ (Next P d) d.records olds)
    (hids : (news.map fun x => x.run.id).Nodup) (hnew : ∀ x ∈ news, x.run.id ∈ d.uuids ∧
      (∀ y ∈ d.records, y.run.id ≠ x.run.id) ∧ Accounts P x.run ∧ x.run.receipts = []) :
    Allowed P d { d with records := olds ++ news } := by
  have hmap : (olds.map fun x => x.run.id) = d.records.map fun x => x.run.id := by
    have heq : List.Forall₂ (fun x y : StoredRun => x.run.id = y.run.id) d.records olds :=
      hnext.imp fun _ _ hxy => hxy.step.2.id.symm
    rw [eq_comm, ← List.forall₂_eq_eq_eq, List.forall₂_map_left_iff, List.forall₂_map_right_iff]
    exact heq
  have hstep : List.Forall₂ (Step P) d.records olds := hnext.imp fun _ _ hxy => hxy.step
  refine ⟨⟨?_, ?_, ?_, h.once, ?_, ?_⟩, ⟨olds, news, rfl, hstep⟩, (Allowed.refl h).calls⟩
  · rw [List.map_append, hmap]
    refine h.ids.append hids fun id hold hnews => ?_
    obtain ⟨x, hx, rfl⟩ := List.mem_map.1 hnews
    obtain ⟨y, hy, hid⟩ := List.mem_map.1 hold
    exact (hnew x hx).2.1 y hy hid
  · intro y hy
    rcases List.mem_append.1 hy with hy | hy
    · obtain ⟨x, hx, hxy⟩ := exists_left hnext hy
      exact hxy.step.2.id ▸ h.drawn x hx
    · exact (hnew y hy).1
  · intro y hy
    rcases List.mem_append.1 hy with hy | hy
    · obtain ⟨x, -, hxy⟩ := exists_left hnext hy
      exact hxy.accounts
    · exact (hnew y hy).2.2.1
  · intro y hy hfree hfinal
    rcases List.mem_append.1 hy with hy | hy
    · obtain ⟨x, -, hxy⟩ := exists_left hnext hy
      have hopen := hxy.going hfree hfinal
      exact ⟨hopen.data, hopen.verification⟩
    · -- nobody was called for a new run
      obtain ⟨-, hother, -, hreceipts⟩ := hnew y hy
      have hcalls : ∀ c ∈ d.calls, c.runId ≠ y.run.id := fun c hc hid => by
        obtain ⟨x, hx, hxid⟩ := h.owned c hc
        exact hother x hx (hxid.trans hid)
      refine ⟨fun _ => (counts_eq_zero hcalls).1, fun _ => ⟨(counts_eq_zero hcalls).2, ?_⟩⟩
      rw [Run.receiptsOn, hreceipts]
      rfl
  · intro c hc
    obtain ⟨x, hx, hid⟩ := h.owned c hc
    obtain ⟨y, hy, hxy⟩ := exists_right hstep hx
    exact ⟨y, List.mem_append_left _ hy, hxy.2.id.trans hid⟩

/-- Writing the file with one record replaced. -/
theorem Allowed.replace (h : Inv P d) {before after : List StoredRun} {x y : StoredRun}
    (hrecords : List.Forall₂ Similar d.records (before ++ x :: after))
    (hnext : ∀ z ∈ d.records, Similar z x → Next P d z y) :
    Allowed P d { d with records := before ++ y :: after } := by
  have hmem : List.Forall₂ (fun z x => z ∈ d.records ∧ Similar z x) d.records
      (before ++ x :: after) := (List.forall₂_and_left _ _).2 ⟨fun _ hz => hz, hrecords⟩
  have hwrite : Allowed P d { d with records := (before ++ y :: after) ++ [] } := Allowed.write h (forall₂_replace hmem
    (fun z w hzw => Next.of_similar h hzw.1 hzw.2) fun z hzx => hnext z hzx.1 hzx.2)
    List.nodup_nil fun _ hz => (List.not_mem_nil hz).elim
  rwa [List.append_nil] at hwrite

end Runs

end Obolos
