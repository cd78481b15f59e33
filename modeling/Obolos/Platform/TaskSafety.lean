import Obolos.Crash.Listing
import Obolos.Crash.Outcome
import Obolos.Crash.Reach
import Obolos.Platform.TaskRuns
import Mathlib.Algebra.BigOperators.Group.List.Basic
import Mathlib.Algebra.GroupWithZero.Nat

/-!
# What the owner of a task can rely on

Whatever the interleaving of the requests, the crashes and the answers that are lost: a task is only
executed under an approved plan within its budget, by the one worker whose first execution was granted
before the approval expired, and every result of it is what `verifyPaidStep` made of the order that was
paid and delivered for that step of the plan.  An approved plan, the worker and the results are never changed again, and
the table never has to refuse a statement.
-/

namespace Obolos

namespace GeneralTasks

open Json (canonicalJson)
open Marketplace (EconomyDeployment OrderRow)
open Tasks (createTaskPlan planSteps readBudget TaskPlan TaskStep RawStep)

/-! ### The budget -/

section Budget

variable {H : Host} {value : Json} {services : List Json}

theorem planSteps_total {budget total t : ℕ} {raw : List RawStep}
    {definitions : List ServiceDefinition} {steps : List TaskStep}
    (h : planSteps H services budget raw definitions total = .ok (steps, t)) :
    t = total + (steps.map fun step => step.definition.amount).sum ∧
      (total ≤ budget → t ≤ budget) := by
  induction raw generalizing definitions total steps t with
  | nil =>
    simp only [planSteps, Except.ok.injEq, Prod.mk.injEq] at h
    obtain ⟨rfl, rfl⟩ := h
    exact ⟨rfl, id⟩
  | cons r raw ih =>
    simp only [planSteps, bind_eq_ok] at h
    obtain ⟨found, -, h⟩ := h
    cases found with
    | none => cases h
    | some registered =>
      simp only [bind_eq_ok, JsError.raise, JsError.throwIf_eq_ok, pure_eq_ok, not_lt] at h
      obtain ⟨definition, -, _, -, hbudget, ⟨rest, t'⟩, hrest, heq⟩ := h
      obtain ⟨rfl, rfl⟩ := Prod.mk.inj heq
      obtain ⟨htotal, hle⟩ := ih hrest
      refine ⟨htotal.trans ?_, fun _ => hle hbudget⟩
      rw [List.map_cons, List.sum_cons, Nat.add_assoc]

theorem readBudget_decimal {n b : ℕ} (h : readBudget (JsString.decimal n) = .ok b) : b = n := by
  unfold readBudget at h
  rcases Nat.eq_zero_or_pos n with rfl | hpos
  · have hnone : readPositive (JsString.decimal 0) = none := by decide
    rw [hnone] at h
    cases h
  · rw [readPositive_decimal hpos] at h
    dsimp only at h
    split_ifs at h
    exact (Except.ok.inj h).symm

/-- The steps of a plan cost no more than the budget. -/
theorem createTaskPlan_total {budget : ℕ} {plan : TaskPlan}
    (h : createTaskPlan H value services (JsString.decimal budget) = .ok plan) :
    (plan.steps.map fun step => step.definition.amount).sum ≤ budget := by
  simp only [createTaskPlan, bind_eq_ok, pure_eq_ok] at h
  obtain ⟨b, hb, ⟨summary, raw⟩, -, _, -, ⟨steps, total⟩, hsteps, rfl⟩ := h
  obtain rfl := readBudget_decimal hb
  obtain ⟨htotal, hle⟩ := planSteps_total hsteps
  rw [Nat.zero_add] at htotal
  exact htotal ▸ hle (Nat.zero_le _)

end Budget

/-! ### Every run -/

variable {ι : Type} [DecidableEq ι] {H : Host} {J : Jsonb} {deployment : Option EconomyDeployment}
  {owner : JsString → Option JsString} {now : ℕ}
  {s t : System.State ι (TaskDb ι) Effect Answer ApiError Response}
  {τ σ : List (Tr (System.State ι (TaskDb ι) Effect Answer ApiError Response)
    (System.Action ι Effect Answer ApiError Response))}
  {d d' : TaskDb ι} {id : JsString} {row : TaskRow}

theorem inv_run
    (h : (system H J deployment).lts.Run (System.State.idle (TaskDb.fresh ι owner now)) τ s) :
    Inv H deployment s.world :=
  (sound.run (inv_fresh owner now) h).1

theorem keeps_run
    (h : (system H J deployment).lts.Run (System.State.idle (TaskDb.fresh ι owner now)) τ s)
    (h' : (system H J deployment).lts.Run s σ t) : Keeps H s.world t.world :=
  sound.rel (inv_fresh owner now) h h' Keeps.refl (fun _ _ _ => Keeps.trans)
    (fun _ _ _ _ hg => hg.keeps) fun _ _ _ _ he => (alone_env he).keeps

/-- What is known of a task. -/
structure Accounted (H : Host) (deployment : Option EconomyDeployment) (d : TaskDb ι) (row : TaskRow) :
    Prop where
  /-- The plan has its hash, and is within the budget. -/
  planned : ∀ plan, row.plan = some plan → ∃ (p : TaskPlan) (planHash : Bytes32),
    plan.Same (planJson p) ∧ row.planHash = some planHash ∧
      plan.canonicalJsonHash H = .ok planHash ∧
      (p.steps.map fun step => step.definition.amount).sum ≤ row.budgetAtomic
  approved : ∀ planHash, row.approvedPlanHash = some planHash → row.planHash = some planHash
  started : row.stepResults ≠ [] ∨ row.status = .running ∨ row.status = .completed →
    row.executionWorker.isSome = true
  /-- What has a worker was approved, and claimed by that worker before the approval expired. -/
  executed : row.executionWorker.isSome = true →
    row.approvedPlanHash.isSome = true ∧ ∃ g ∈ d.granted, ∃ expiry, g.taskId = row.id ∧
      g.phase = .execute ∧ row.executionWorker = some g.worker ∧
      row.approvalExpiresAt = some expiry ∧ g.now < expiry
  /-- Every result was delivered for the order of its step of the approved plan. -/
  delivered : ∀ index recorded, row.stepResults[index]? = some recorded →
    ∃ before paid order result,
      Delivery H deployment d.orders row index recorded before paid order result ∧
        row.approvedPlanHash = some paid.planHash ∧
        paid.orderId = taskStepOrderId H row.id paid.planHash index
  completed : row.status = .completed →
    ∃ plan, row.plan = some plan ∧ row.stepResults.length = (stepsOf plan).length
  cancelled : row.status = .cancelled → row.executionWorker = none ∧ row.stepResults = []

/-- The order of a result is that of the step of the approved plan. -/
theorem Delivery.identity {orders : OrderTable} {index : ℕ} {recorded : Json} {before : TaskRow}
    {paid : PaidStep} {order : OrderRow} {result : TaskStepResult}
    (h : Delivery H deployment orders row index recorded before paid order result) :
    row.approvedPlanHash = some paid.planHash ∧
      paid.orderId = taskStepOrderId H row.id paid.planHash index := by
  obtain ⟨_, -, -, happroved, -, -, horder⟩ := approvedStep_ok h.approved
  have hid : row.id = before.id := by rw [h.earlier.identity]
  obtain ⟨-, -, hsame, -⟩ := h.earlier.approved (by rw [happroved]; rfl)
  exact ⟨hsame.trans happroved, by rw [horder, hid]⟩

omit [DecidableEq ι] in
/-- The first execution of a task was granted in time. -/
theorem exists_first (hinv : Inv H deployment d) (hrow : d.tasks.get id = some row)
    (hw : row.executionWorker.isSome = true) : ∃ g ∈ d.granted, ∃ expiry, g.taskId = row.id ∧
      g.phase = .execute ∧ row.executionWorker = some g.worker ∧
      row.approvalExpiresAt = some expiry ∧ g.now < expiry := by
  have hid : row.id = id := id_of_get hrow rfl
  obtain ⟨g₀, hg₀, hid₀, hphase₀⟩ := hinv.history.executed id row hrow hw
  let isFirst := fun g : Grant => decide (g.taskId = id ∧ g.phase = .execute)
  cases hfind : d.granted.find? isFirst with
  | none =>
    have hnone := List.find?_eq_none.1 hfind g₀ hg₀
    exact absurd (decide_eq_true ⟨hid₀, hphase₀⟩) hnone
  | some g =>
    obtain ⟨hg, l, l', hsplit, hbefore⟩ := List.find?_eq_some_iff_append.1 hfind
    obtain ⟨hgid, hphase⟩ := of_decide_eq_true hg
    have hmem : g ∈ d.granted := by rw [hsplit]; simp
    obtain ⟨r, expiry, hr, hexpiry, hlt⟩ := hinv.history.first l g l' hsplit hphase
      fun g' hg' heq hp => by
        have hfalse := hbefore g' hg'
        rw [Bool.not_eq_true', decide_eq_false_iff_not] at hfalse
        exact hfalse ⟨heq.trans hgid, hp⟩
    obtain ⟨r', hr', hworker⟩ := hinv.history.rows g hmem
    rw [hgid, hrow] at hr hr'
    cases hr
    cases hr'
    exact ⟨g, hmem, expiry, hgid.trans hid.symm, hphase, hworker hphase, hexpiry, hlt⟩

/-- **What is paid for.**  In every state that the requests lead to, all of this is true of every
task. -/
theorem accounted
    (h : (system H J deployment).lts.Run (System.State.idle (TaskDb.fresh ι owner now)) τ s)
    (hrow : s.world.tasks.get id = some row) : Accounted H deployment s.world row := by
  have hinv := inv_run h
  have hok := hinv.rows id row hrow
  have hstarted : row.stepResults ≠ [] ∨ row.status = .running ∨ row.status = .completed →
      row.executionWorker.isSome = true := by
    rintro (hne | hstatus)
    · exact hok.paid hne
    · exact hok.consistent.executed hstatus
  refine ⟨fun plan hplan => ?_, fun planHash hhash => ?_, hstarted,
    fun hw => ⟨hok.executed hw, exists_first hinv hrow hw⟩, fun index recorded hrecorded => ?_,
    fun hstatus => ?_, fun hstatus => ?_⟩
  · obtain ⟨planHash, hhash, hcreated⟩ := hok.planned plan hplan
    obtain ⟨value, catalog, p, hp, -, hsame⟩ := hcreated.created
    exact ⟨p, planHash, hsame, hhash, hcreated.hash, createTaskPlan_total hp⟩
  · rw [hok.approved (by rw [hhash]; rfl), hhash]
  · obtain ⟨before, paid, order, result, hdelivery⟩ := hinv.delivered id row hrow index recorded
      hrecorded
    exact ⟨before, paid, order, result, hdelivery, hdelivery.identity⟩
  · obtain ⟨plan, hplan⟩ := Option.isSome_iff_exists.1
      (hok.plan_of_approved (hok.executed (hstarted (Or.inr (Or.inr hstatus)))))
    obtain ⟨_, -, hcreated⟩ := hok.planned plan hplan
    obtain ⟨steps, hsteps⟩ := hcreated.steps
    have hcounts := hok.consistent.completed hstatus
    simp only [TaskRow.CountsSteps, hplan, Option.bind_some, hsteps] at hcounts
    exact ⟨plan, hplan, by rw [stepsOf_eq hsteps, hcounts]⟩
  · have hnone := hok.cancelled hstatus
    refine ⟨hnone, by_contra fun hne => ?_⟩
    have hsome := hok.paid hne
    rw [hnone] at hsome
    cases hsome

/-- **What stays.**  Between any two states, an approved plan, the worker that executes it and the
recorded results stay, a completed or cancelled task stays so, and a token that was replaced never
comes back. -/
theorem tasks_become
    (h : (system H J deployment).lts.Run (System.State.idle (TaskDb.fresh ι owner now)) τ s)
    (h' : (system H J deployment).lts.Run s σ t) (hrow : s.world.tasks.get id = some row) :
    ∃ row', t.world.tasks.get id = some row' ∧ row.Becomes H row' ∧
      ∀ g ∈ s.world.granted, row.claimToken ≠ some g.token → row'.claimToken ≠ some g.token := by
  have hkeeps := keeps_run h h'
  obtain ⟨row', hrow', hbecomes⟩ := hkeeps.rows id row hrow
  exact ⟨row', hrow', hbecomes, fun g hg hne =>
    hkeeps.fenced id row row' g.token hrow hrow' ⟨g, hg, rfl⟩ hne⟩

/-- **The constraints are never met.**  No statement of a handler, the insertion of a task among them,
is refused by a constraint of the table or by the trigger. -/
theorem never_refused
    (h : (system H J deployment).lts.Run (System.State.idle (TaskDb.fresh ι owner now)) τ s) :
    ∀ e ∈ s.world.refused, e ≠ ApiError.checkViolation ∧ e ≠ ApiError.raised :=
  (inv_run h).unrefused

/-- **Claims.**  A token belongs to one worker and one task, and only one worker is ever granted an
execution of a task. -/
theorem claims_exclusive
    (h : (system H J deployment).lts.Run (System.State.idle (TaskDb.fresh ι owner now)) τ s)
    {g g' : Grant} (hg : g ∈ s.world.granted) (hg' : g' ∈ s.world.granted) :
    (g.token = g'.token → g.worker = g'.worker ∧ g.taskId = g'.taskId) ∧
      (g.taskId = g'.taskId → g.phase = .execute → g'.phase = .execute → g.worker = g'.worker) := by
  have hhistory := (inv_run h).history
  refine ⟨hhistory.tokens g hg g' hg', fun hid hphase hphase' => ?_⟩
  obtain ⟨row, hrow, hworker⟩ := hhistory.rows g hg
  obtain ⟨row', hrow', hworker'⟩ := hhistory.rows g' hg'
  rw [hid, hrow'] at hrow
  cases hrow
  exact Option.some.inj ((hworker hphase).symm.trans (hworker' hphase'))

/-- **An approval that has expired.**  A task whose approval has expired before anybody executed it is
never executed: it can only be cancelled. -/
theorem expired_approval
    (h : (system H J deployment).lts.Run (System.State.idle (TaskDb.fresh ι owner now)) τ s)
    (h' : (system H J deployment).lts.Run s σ t) (hrow : s.world.tasks.get id = some row)
    {expiry : ℕ} (hexpiry : row.approvalExpiresAt = some expiry)
    (happroved : row.approvedPlanHash.isSome = true) (hidle : row.executionWorker = none)
    (hexpired : expiry ≤ s.world.now) :
    ∃ row', t.world.tasks.get id = some row' ∧ row'.executionWorker = none ∧
      row'.stepResults = [] ∧ row'.status ≠ .running ∧ row'.status ≠ .completed := by
  have hkeeps := keeps_run h h'
  have hinv' : Inv H deployment t.world := inv_run (h.append h')
  obtain ⟨row', hrow', hbecomes⟩ := hkeeps.rows id row hrow
  have hnone : row'.executionWorker = none := by
    by_contra hsome
    obtain ⟨g, hg, expiry', hid, hphase, -, hexpiry', hlt⟩ :=
      exists_first hinv' hrow' (Option.isSome_iff_ne_none.2 hsome)
    -- The grant is older than the state, where the task had no worker.
    have hsame := (hbecomes.approved happroved).2.2.2
    obtain rfl : expiry' = expiry := Option.some.inj (hexpiry'.symm.trans (hsame.trans hexpiry))
    obtain ⟨l, hl, hlater⟩ := hkeeps.granted
    rw [hl] at hg
    rcases List.mem_append.1 hg with hold | hnew
    · obtain ⟨r, hr, hworker⟩ := (inv_run h).history.rows g hold
      rw [hid, id_of_get hrow' rfl, hrow] at hr
      cases hr
      rw [hworker hphase] at hidle
      cases hidle
    · have hnow := hlater g hnew
      omega
  have hok := hinv'.rows id row' hrow'
  refine ⟨row', hrow', hnone, by_contra fun hne => ?_, fun hs => ?_, fun hs => ?_⟩
  · have hsome := hok.paid hne
    rw [hnone] at hsome
    cases hsome
  · have hsome := hok.consistent.executed (Or.inl hs)
    rw [hnone] at hsome
    cases hsome
  · have hsome := hok.consistent.executed (Or.inr hs)
    rw [hnone] at hsome
    cases hsome

/-! ### The limit and the listing -/

instance : Std.Total listedBefore where
  total a b := by
    unfold listedBefore
    have hid := Json.le_total a.id b.id
    have htime := Nat.lt_trichotomy a.createdAt b.createdAt
    cases a.isPending <;> cases b.isPending <;> simp <;> tauto

instance : IsTrans TaskRow listedBefore where
  trans a b c hab hbc := by
    unfold listedBefore at hab hbc ⊢
    rcases hab with ⟨ha, hb⟩ | ⟨hab, hrest⟩ <;> rcases hbc with ⟨hb', hc⟩ | ⟨hbc, hrest'⟩
    · rw [hb] at hb'
      cases hb'
    · exact Or.inl ⟨ha, hbc ▸ hb⟩
    · exact Or.inl ⟨hab ▸ hb', hc⟩
    · refine Or.inr ⟨hab.trans hbc, ?_⟩
      rcases hrest with hlt | ⟨heq, hle⟩ <;> rcases hrest' with hlt' | ⟨heq', hle'⟩
      · exact Or.inl (hlt'.trans hlt)
      · exact Or.inl (heq' ▸ hlt)
      · exact Or.inl (heq ▸ hlt')
      · exact Or.inr ⟨heq.trans heq', Json.le_trans hle hle'⟩

omit [DecidableEq ι] in
/-- The listing as one by whether a task is pending. -/
theorem lists_selectTasks {agentId userId : JsString} {rows : List TaskRow}
    (h : selectTasks agentId userId d = .ok (rows, d')) :
    Listing.Lists (fun row => row.isPending.toNat) 100
      (d.tasks.rows.filter fun row => row.agentId = agentId ∧ row.userId = userId) rows := by
  cases h
  refine ⟨_, List.perm_insertionSort listedBefore _,
    (List.pairwise_insertionSort listedBefore _).imp fun {a b} hab => ?_, rfl⟩
  show b.isPending.toNat ≤ a.isPending.toNat
  rcases hab with ⟨ha, hb⟩ | ⟨hab, -⟩
  · rw [hb]
    exact Nat.zero_le _
  · rw [hab]

theorem isOpen_of_isPending (h : row.isPending = true) : row.isOpen = true := by
  have hstatus := of_decide_eq_true h
  rcases hstatus with hs | hs | hs | hs <;> simp [TaskRow.isOpen, hs]

omit [DecidableEq ι] in
/-- A pending task has a small rank. -/
theorem listed_of_pending {agentId userId : JsString} {rows : List TaskRow} (hinv : Inv H deployment d)
    (hrow : d.tasks.get id = some row) (hagent : row.agentId = agentId) (huser : row.userId = userId)
    (hpending : row.isPending = true) (h : selectTasks agentId userId d = .ok (rows, d')) :
    row ∈ rows := by
  refine Listing.mem_of_rank_le ?_ ?_ (lists_selectTasks h)
  · rw [List.mem_filter]
    exact ⟨(Table.get_eq_some.1 hrow).1, decide_eq_true ⟨hagent, huser⟩⟩
  · have hlimit := hinv.limit agentId
    refine le_trans ?_ (hlimit.trans (by decide : 25 ≤ 100))
    rw [Listing.rank, List.countP_filter, openCount]
    refine List.countP_mono_left fun r _ hr => ?_
    rw [hpending, Bool.and_eq_true, decide_eq_true_eq, decide_eq_true_eq] at hr
    obtain ⟨hle, hagent', -⟩ := hr
    rw [Bool.and_eq_true, decide_eq_true_eq]
    refine ⟨hagent', isOpen_of_isPending ?_⟩
    cases hr : r.isPending with
    | true => rfl
    | false =>
      rw [hr] at hle
      exact absurd hle (by decide)

/-- **The limit.**  An agent has at most 25 open tasks, so a listing of 100 tasks has all that a worker
may claim. -/
theorem tasks_listed {agentId userId : JsString} {rows : List TaskRow}
    (h : (system H J deployment).lts.Run (System.State.idle (TaskDb.fresh ι owner now)) τ s)
    (hrows : selectTasks agentId userId s.world = .ok (rows, d')) :
    openCount agentId s.world.tasks ≤ 25 ∧
      ∀ id row, s.world.tasks.get id = some row → row.agentId = agentId → row.userId = userId →
        (∃ worker, row.claimable s.world.now worker = true) → row ∈ rows := by
  have hinv := inv_run h
  refine ⟨hinv.limit agentId, fun id row hrow hagent huser ⟨worker, hclaim⟩ => ?_⟩
  refine listed_of_pending hinv hrow hagent huser (decide_eq_true ?_) hrows
  rcases (TaskRow.claimable_cases hclaim).2 with (hs | hs) | ⟨hs | hs, -⟩
  · exact Or.inl hs
  · exact Or.inr (Or.inl hs)
  · exact Or.inr (Or.inr (Or.inl hs))
  · exact Or.inr (Or.inr (Or.inr hs))

/-! ### Creating a task -/

/-- What was answered to a creation. -/
def CreatedAnswer (H : Host) (deployment : Option EconomyDeployment) (userId : JsString) (value : Json)
    (key : Option JsString) : Except ApiError Response → TaskDb ι → Prop
  | .ok (.created row _), d => Seen H deployment row d ∧ ∃ input, readInput H value = .ok input ∧
      row.userId = userId ∧ row.agentId = input.agentId.toLowerCase ∧
      some row.idempotencyKey = key ∧ input.json.canonicalJsonHash H = .ok row.requestHash
  | _, _ => True

theorem wp_create {i : ι} {userId : JsString} {value : Json} {key : Option JsString}
    (hinv : Inv H deployment d) : (handle H deployment (.create userId value key)).wp
      (spec H J deployment i) (CreatedAnswer H deployment userId value key) d := by
  refine Prog.wp_bind.2 (Prog.wp_mono (wp_createTask hinv) fun r d hr => ?_)
  cases r with
  | error e => trivial
  | ok result => exact Prog.wp_pure.2 hr.2

/-- **A key belongs to one request.**  A task that was answered is in the table from then on, and no
other task has its user, its agent and its key; a repeated request has the same hash. -/
theorem created_once {i : ι} {userId : JsString} {value : Json} {key : Option JsString}
    {replayed : Bool} {u : System.State ι (TaskDb ι) Effect Answer ApiError Response}
    (h : (system H J deployment).lts.Run (System.State.idle (TaskDb.fresh ι owner now)) τ s)
    (hfree : s.processes i = none) (hvalue : value.Distinct)
    (ha : (system H J deployment).Answers s i (handle H deployment (.create userId value key))
      (.ok (.created row replayed)) t)
    (h' : (system H J deployment).lts.Run t σ u) :
    ∃ row' input, u.world.tasks.get row.id = some row' ∧ row.Becomes H row' ∧
      readInput H value = .ok input ∧ row.userId = userId ∧
      row.agentId = input.agentId.toLowerCase ∧ some row.idempotencyKey = key ∧
      input.json.canonicalJsonHash H = .ok row.requestHash ∧
      ∀ id other, u.world.tasks.get id = some other → other.userId = row.userId →
        other.agentId = row.agentId → other.idempotencyKey = row.idempotencyKey → id = row.id := by
  have hholds := sound.run (inv_fresh owner now) h
  have hstart : (system H J deployment).starts i s.world
      (handle H deployment (.create userId value key)) := ⟨.create userId value key, hvalue, rfl⟩
  have hstable : ∀ r d d', Rely H deployment i d d' → CreatedAnswer H deployment userId value key r d →
      CreatedAnswer H deployment userId value key r d' := by
    intro r d d' hrely hanswer
    unfold CreatedAnswer at hanswer ⊢
    split at hanswer
    · exact ⟨Seen.stable d d' hrely.keeps hrely.inv hanswer.1, hanswer.2⟩
    · trivial
  obtain ⟨hseen, input, hinput, huser, hagent, hkey, hhash⟩ :=
    sound.answers hholds hstart hfree hstable (wp_create hholds.1) ha
  obtain ⟨ρ, hrun⟩ := System.run_of_answers hfree hstart ha
  have hkeeps := keeps_run (h.append hrun) h'
  have hinv : Inv H deployment u.world := inv_run ((h.append hrun).append h')
  obtain ⟨row', hrow', hbecomes⟩ := (Seen.stable _ _ hkeeps (fun _ => hinv) hseen).row
  refine ⟨row', input, hrow', hbecomes, hinput, huser, hagent, hkey, hhash,
    fun id other hother huser' hagent' hkey' => ?_⟩
  refine hinv.keys id row.id other row' _ hother hrow' rfl ?_
  show some (row'.userId, row'.agentId, row'.idempotencyKey) = _
  rw [huser', hagent', hkey', hbecomes.identity]

/-! ### One task -/

namespace Sample

open Tasks.Sample (service raw)

/-- The agent, and the identifier of its task. -/
def agentId : JsString := js "00000000-0000-4000-8000-000000000001"

/-- The task. -/
def taskId : JsString := js "00000000-0000-4000-8000-000000000002"

/-- Its owner. -/
def userId : JsString := js "owner"

/-- Where the services belong. -/
def arc : Option EconomyDeployment := some ⟨1, 2⟩

/-- The next token. -/
def nextToken (n : ℕ) : JsString := List.replicate n 97 ++ List.replicate (64 - n) 48

/-- The answer of a statement, in a database where `n` tokens were drawn. -/
def execute {α : Type} (f : Statement (TaskDb Unit) ApiError α) (e : TaskDb Unit × ℕ) :
    Except ApiError α × (TaskDb Unit × ℕ) :=
  match f e.1 with
  | .ok (a, d) => (.ok a, (d, e.2))
  | .error x => (.error x, ({ e.1 with refused := e.1.refused ++ [x] }, e.2))

/-- What the statements of a transaction are answered. -/
def respondLock (agentId userId : JsString) (d : TaskDb Unit) : Except ApiError Unit × TaskDb Unit :=
  match d.creating with
  | [] =>
    if d.owner agentId = some userId then (.ok (), { d with creating := [⟨(), agentId, none⟩] })
    else (.error foreignKeyViolation, d)
  | _ :: _ => (.error (.thrown .other), d)

/-- What the insertion is answered. -/
def respondInsert (task : NewTask) (d : TaskDb Unit) :
    Except ApiError (Option TaskRow) × TaskDb Unit :=
  match d.creating with
  | [⟨(), agentId, none⟩] =>
    if agentId = task.agentId then
      match insertTask task d with
      | .ok o => (.ok o, { d with creating := [⟨(), task.agentId, o⟩] })
      | .error e => (.error e, { d with creating := [], refused := d.refused ++ [e] })
    else (.error (.thrown .other), d)
  | _ => (.error (.thrown .other), d)

/-- What the end of the transaction is answered. -/
def respondCommit (d : TaskDb Unit) : Except ApiError Unit × TaskDb Unit :=
  match d.creating with
  | [⟨(), _, none⟩] => (.ok (), { d with creating := [] })
  | [⟨(), _, some row⟩] => (.ok (), { d with tasks := d.tasks.insert row, creating := [] })
  | _ => (.error (.thrown .other), d)

/-- An answer that leaves the tokens alone. -/
def keepTokens {α : Type} (r : Except ApiError α × TaskDb Unit) (n : ℕ) :
    Except ApiError α × (TaskDb Unit × ℕ) := (r.1, (r.2, n))

/-- What the effects are answered. -/
def respond (e : TaskDb Unit × ℕ) :
    (o : Effect) → Except ApiError (Answer o) × (TaskDb Unit × ℕ)
  | .selectOwner agentId => (.ok (e.1.owner agentId), e)
  | .selectAddress agentId => (.ok ((e.1.owner agentId).map fun userId => (js "0x1", userId)), e)
  | .lockAgent agentId userId => keepTokens (respondLock agentId userId e.1) e.2
  | .insertTask task => keepTokens (respondInsert task e.1) e.2
  | .commit => keepTokens (respondCommit e.1) e.2
  | .selectByKey userId agentId key => execute (selectByKey userId agentId key) e
  | .selectOwned userId id => execute (selectOwned userId id) e
  | .approveTask id userId planHash revision =>
    execute (approveTask .plain id userId planHash revision) e
  | .cancelTask id userId revision => execute (cancelTask .plain id userId revision) e
  | .retryTask id userId revision => execute (retryTask .plain id userId revision) e
  | .selectTasks agentId userId => execute (selectTasks agentId userId) e
  | .selectTask id agentId userId => execute (Statement.read fun d =>
      (d.tasks.get id).filter fun row => row.agentId = agentId ∧ row.userId = userId) e
  | .claimTask agentId worker token =>
    execute (claimTaskRow .plain (fun _ => false) agentId worker token) e
  | .selectClaimed agentId id token => execute (selectClaimed agentId id token) e
  | .reportTask id agentId token report revision =>
    execute (reportTask .plain .identity id agentId token report revision) e
  | .listEconomyServices => (.ok [service], e)
  | .selectPaidOrder orderId userId agentId => execute (selectPaidOrder orderId userId agentId) e
  | .randomUUID => (.ok taskId, e)
  | .randomToken => (.ok (nextToken e.2), ({ e.1 with
      drawn := Function.update e.1.drawn (nextToken e.2) (some ()) }, e.2 + 1))
  | .dateNow => (.ok e.1.now, e)

/-- A database with the agent of the owner. -/
def start : TaskDb Unit × ℕ :=
  (.fresh Unit (fun id => if id = agentId then some userId else none) 1000, 0)

/-- The database after a request. -/
def after (request : Request) (e : TaskDb Unit × ℕ) : TaskDb Unit × ℕ :=
  ((handle .plain arc request).exec respond e).2

/-- The owner creates the task. -/
def create : Request :=
  .create userId (.obj [(js "agentId", .str agentId), (js "instruction", .str (js "Twice.")),
    (js "budgetAtomic", .str (js "2"))]) (some (js "key"))

/-- A worker claims a task. -/
def claim : Request :=
  .claim agentId (.obj [(js "action", .str (js "claim")), (js "workerId", .str (js "worker"))])

/-- The worker reports a plan. -/
def reportPlan : Request :=
  .report agentId taskId (.obj [(js "action", .str (js "plan")),
    (js "claimToken", .str (nextToken 0)), (js "plan", raw)])

/-- A plan waits for the owner. -/
def planned : TaskDb Unit × ℕ := after reportPlan (after claim (after create start))

/-- The hash of the plan. -/
def planHash : Bytes32 := ((planned.1.tasks.rows.head?).bind TaskRow.planHash).getD 0

/-- The owner approves it. -/
def approve : Request :=
  .update userId taskId (.obj [(js "action", .str (js "approve")),
    (js "planHash", .str planHash.text)])

/-- The plan is approved. -/
def approved : TaskDb Unit × ℕ := after approve planned

/-- The worker executes it. -/
def executed : TaskDb Unit × ℕ := after claim approved

/-- The hash of a value. -/
def hashOf (x : Json) : Bytes32 := Host.plain.textHash (canonicalJson Host.plain.numerals x)

/-- The request for the first step. -/
def request : ServiceRequest where
  orderId := taskStepOrderId .plain taskId planHash 0
  agentId := Host.plain.textHash agentId
  payer := 5
  serviceHash := service.serviceHash
  inputHash := hashOf (.str (js "Hello"))
  category := .inference
  unit := js "inference-request"
  quantity := 1
  unitPriceAtomic := 1
  amountAtomic := 1
  settlementAddress := 1
  ledgerAddress := 2
  transactionHash := 1
  input := .str (js "Hello")

/-- What was delivered. -/
def output : Json := .str (js "Hi")

/-- The order of the first step, paid in transaction `1` and delivered. -/
def order : OrderRow where
  orderId := request.orderId
  userId := userId
  platformAgentId := agentId
  serviceHash := service.serviceHash
  requestHash := hashOf request.json
  request := request.json
  definition := service.json
  transactionHash := 1
  receipt := ⟨chainId, .success, 1,
    [⟨1, .OrderSettled request.orderId 0 5 1 1 0 0 0 1 1⟩,
      ⟨2, .OrderPaid request.orderId request.agentId 3 service.serviceHash
        ResourceCategory.inference.index (Host.plain.textHash service.unit) 1 1 1
        request.inputHash⟩]⟩
  createdAt := 0
  updatedAt := 0
  state := .fulfilled
  output := some output
  outputHash := some (hashOf output)

/-- The table of the orders. -/
def orders : OrderTable := ⟨[order], List.nodup_singleton _⟩

/-- The first step is paid for and delivered. -/
def paid : TaskDb Unit × ℕ := ({ executed.1 with orders }, executed.2)

/-- The worker reports the first step. -/
def progress : Request :=
  .report agentId taskId (.obj [(js "action", .str (js "progress")),
    (js "claimToken", .str (nextToken 0)), (js "index", .num 0),
    (js "orderId", .str request.orderId.text)])

/-- The first step has its result. -/
def progressed : TaskDb Unit × ℕ := after progress paid

/-- The status and the number of the claims of the tasks. -/
def shape (e : TaskDb Unit × ℕ) : List TaskStatus × ℕ :=
  (e.1.tasks.rows.map TaskRow.status, e.1.granted.length)


/-- The next tokens are not drawn yet, and the orders were read with `JSON.parse`. -/
structure Fresh (e : TaskDb Unit × ℕ) : Prop where
  tokens : ∀ n, e.2 ≤ n → e.1.drawn (nextToken n) = none
  outputs : ∀ order ∈ e.1.orders.rows, ∀ x, order.output = some x → x.Distinct

/-- The tokens and the orders stay. -/
structure Still (d d' : TaskDb Unit) : Prop where
  drawn : d'.drawn = d.drawn
  orders : d'.orders = d.orders

theorem Fresh.still {e : TaskDb Unit × ℕ} {d : TaskDb Unit} (h : Fresh e) (hd : Still e.1 d) :
    Fresh (d, e.2) where
  tokens n hn := by
    show d.drawn (nextToken n) = none
    rw [hd.drawn]
    exact h.tokens n hn
  outputs order horder := by
    change order ∈ d.orders.rows at horder
    rw [hd.orders] at horder
    exact h.outputs order horder

theorem nextToken_inj {m n : ℕ} (h : nextToken m = nextToken n) : m = n := by
  have hcount := congrArg (List.count 97) h
  simpa [nextToken, List.count_replicate] using hcount

section Respond

variable {α : Type} {e : TaskDb Unit × ℕ} {d d' : TaskDb Unit}

theorem execute_sends {f : Statement (TaskDb Unit) ApiError α}
    (hf : ∀ a d', f e.1 = .ok (a, d') → Still e.1 d') (hfresh : Fresh e) :
    Sends f e.1 (execute f e).1 (execute f e).2.1 ∧ Fresh (execute f e).2 := by
  unfold execute
  cases h : f e.1 with
  | ok x => exact ⟨.done h (Or.inl rfl), hfresh.still (hf _ _ h)⟩
  | error x => exact ⟨.refused h (Or.inl rfl), hfresh.still ⟨rfl, rfl⟩⟩

theorem still_read {g : TaskDb Unit → α} (a : α) (d' : TaskDb Unit)
    (h : (Statement.read g : Statement (TaskDb Unit) ApiError α) d = .ok (a, d')) : Still d d' := by
  cases h
  exact ⟨rfl, rfl⟩

theorem still_run {f : Statement TaskTable ApiError α} (a : α) (d' : TaskDb Unit)
    (h : TaskDb.run f d = .ok (a, d')) : Still d d' := by
  unfold TaskDb.run at h
  cases hf : f d.tasks with
  | ok x =>
    rw [hf] at h
    cases h
    exact ⟨rfl, rfl⟩
  | error x =>
    rw [hf] at h
    cases h

theorem still_claimTaskRow {locked : JsString → Bool} {agentId worker token : JsString}
    (o : Option TaskRow) (d' : TaskDb Unit)
    (h : claimTaskRow .plain locked agentId worker token d = .ok (o, d')) : Still d d' := by
  unfold claimTaskRow at h
  split at h
  · cases h
    exact ⟨rfl, rfl⟩
  · have hstill := still_run o d' h
    exact ⟨hstill.drawn, hstill.orders⟩

theorem still_reportTask {id agentId token : JsString} {report : Report} {revision : ℕ}
    (o : Option TaskRow) (d' : TaskDb Unit)
    (h : reportTask .plain .identity id agentId token report revision d = .ok (o, d')) :
    Still d d' := by
  unfold reportTask at h
  split at h
  · cases h
  · cases h
  · exact still_run o d' h

theorem respondLock_locks (agentId userId : JsString) (d : TaskDb Unit) :
    Locks () agentId userId d (respondLock agentId userId d).1 (respondLock agentId userId d).2 ∧
      Still d (respondLock agentId userId d).2 := by
  unfold respondLock
  cases hcreating : d.creating with
  | nil =>
    split_ifs with howner
    · have hdone := Locks.done (i := ()) (d := d) howner (by rw [hcreating]; rintro c ⟨⟩) (Or.inl rfl)
      rw [hcreating] at hdone
      exact ⟨hdone, rfl, rfl⟩
    · exact ⟨.foreign howner, rfl, rfl⟩
  | cons c l => exact ⟨.unsent trivial, rfl, rfl⟩

theorem respondInsert_inserts (task : NewTask) (d : TaskDb Unit) :
    Inserts () task d (respondInsert task d).1 (respondInsert task d).2 ∧
      Still d (respondInsert task d).2 := by
  have hwithout : d.without () = [] := List.filter_eq_nil_iff.2 fun c _ => by simp
  unfold respondInsert
  split
  · rename_i agentId hcreating
    split_ifs with hagent
    · cases hinsert : insertTask task d with
      | ok o =>
        have hdone := Inserts.done (i := ()) (by rw [hcreating, hagent]; simp) hinsert (Or.inl rfl)
        rw [hwithout] at hdone
        exact ⟨hdone, rfl, rfl⟩
      | error e =>
        have hrefused := Inserts.refused (i := ()) hinsert (Or.inl rfl)
        rw [hwithout] at hrefused
        exact ⟨hrefused, rfl, rfl⟩
    · exact ⟨.unsent trivial, rfl, rfl⟩
  · exact ⟨.unsent trivial, rfl, rfl⟩

theorem respondCommit_commits (d : TaskDb Unit) :
    Commits () d (respondCommit d).1 (respondCommit d).2 ∧ Still d (respondCommit d).2 := by
  have hwithout : d.without () = [] := List.filter_eq_nil_iff.2 fun c _ => by simp
  unfold respondCommit
  split
  · rename_i agentId hcreating
    have hmem : (⟨(), agentId, none⟩ : Creating Unit) ∈ d.creating := by rw [hcreating]; simp
    have hempty := Commits.empty hmem (Or.inl rfl)
    rw [hwithout] at hempty
    exact ⟨hempty, rfl, rfl⟩
  · rename_i agentId row hcreating
    have hmem : (⟨(), agentId, some row⟩ : Creating Unit) ∈ d.creating := by rw [hcreating]; simp
    have hdone := Commits.done hmem (Or.inl rfl)
    rw [hwithout] at hdone
    exact ⟨hdone, rfl, rfl⟩
  · exact ⟨.unsent trivial, rfl, rfl⟩

theorem distinct_service : service.Distinct := by
  have h : (Json.obj [(js "type", .str (js "string"))]).Distinct :=
    .obj (by simp) (by simp [Json.Distinct.str])
  exact ⟨h, h⟩

theorem respond_sem (e : TaskDb Unit × ℕ) (o : Effect) (hfresh : Fresh e) :
    sem .plain .identity () e.1 o (respond e o).1 (respond e o).2.1 ∧ Fresh (respond e o).2 := by
  cases o with
  | selectOwner agentId => exact ⟨⟨rfl, fun o ho => (Except.ok.inj ho).symm⟩, hfresh⟩
  | selectAddress agentId =>
    refine ⟨⟨rfl, fun address userId h => ?_⟩, hfresh⟩
    obtain ⟨u, hu, heq⟩ := Option.map_eq_some_iff.1 (Except.ok.inj h)
    rw [hu, (Prod.mk.inj heq).2]
  | lockAgent agentId userId =>
    obtain ⟨hlocks, hstill⟩ := respondLock_locks agentId userId e.1
    exact ⟨hlocks, hfresh.still hstill⟩
  | insertTask task =>
    obtain ⟨hinserts, hstill⟩ := respondInsert_inserts task e.1
    exact ⟨hinserts, hfresh.still hstill⟩
  | commit =>
    obtain ⟨hcommits, hstill⟩ := respondCommit_commits e.1
    exact ⟨hcommits, hfresh.still hstill⟩
  | selectByKey userId agentId key => exact execute_sends still_read hfresh
  | selectOwned userId id => exact execute_sends still_read hfresh
  | selectTasks agentId userId => exact execute_sends still_read hfresh
  | selectTask id agentId userId => exact execute_sends still_read hfresh
  | selectClaimed agentId id token => exact execute_sends still_read hfresh
  | approveTask id userId planHash revision => exact execute_sends still_run hfresh
  | cancelTask id userId revision => exact execute_sends still_run hfresh
  | retryTask id userId revision => exact execute_sends still_run hfresh
  | claimTask agentId worker token =>
    obtain ⟨hsends, hfresh⟩ := execute_sends (f := claimTaskRow .plain (fun _ => false) agentId worker
      token) still_claimTaskRow hfresh
    exact ⟨⟨_, hsends⟩, hfresh⟩
  | reportTask id agentId token report revision => exact execute_sends still_reportTask hfresh
  | listEconomyServices =>
    refine ⟨⟨rfl, fun services h x hx => ?_⟩, hfresh⟩
    rw [← Except.ok.inj h, List.mem_singleton] at hx
    rw [hx]
    exact distinct_service
  | selectPaidOrder orderId userId agentId =>
    obtain ⟨hsends, hfresh'⟩ := execute_sends (f := selectPaidOrder orderId userId agentId)
      still_read hfresh
    refine ⟨⟨hsends, fun order horder => ?_⟩, hfresh'⟩
    have hget := (Option.filter_eq_some_iff.1 (Except.ok.inj horder)).1
    exact hfresh.outputs order (Table.get_eq_some.1 hget).1
  | randomUUID => exact ⟨rfl, hfresh⟩
  | dateNow => exact ⟨rfl, hfresh⟩
  | randomToken =>
    refine ⟨⟨nextToken e.2, hfresh.tokens _ le_rfl, rfl, rfl⟩, fun n hn => ?_, hfresh.outputs⟩
    have hne : nextToken n ≠ nextToken e.2 := fun h => by
      have hn' : e.2 + 1 ≤ n := hn
      have heq := nextToken_inj h
      omega
    exact (Function.update_of_ne hne ..).trans (hfresh.tokens n (Nat.le_of_succ_le hn))

end Respond

/-- The runs from a state in which nothing is under way. -/
def Leads (e e' : TaskDb Unit × ℕ) : Prop :=
  ∃ τ, (system .plain .identity arc).lts.Run (System.State.idle e.1) τ (System.State.idle e'.1)

theorem leads_after {request : Request} {e : TaskDb Unit × ℕ} (hparsed : request.Parsed)
    (hfresh : Fresh e) : Leads e (after request e) ∧ Fresh (after request e) := by
  obtain ⟨hreach, hend⟩ := Prog.Reaches.exec_view Prod.fst Fresh respond_sem
    (handle .plain arc request) e hfresh
  exact ⟨System.run_to_end (S := system .plain .identity arc) (s := System.State.idle e.1) (i := ())
    hreach rfl ⟨request, hparsed, rfl⟩, hend⟩

theorem Leads.trans {e e' e'' : TaskDb Unit × ℕ} (h : Leads e e') (h' : Leads e' e'') :
    Leads e e'' := by
  obtain ⟨τ, hτ⟩ := h
  obtain ⟨σ, hσ⟩ := h'
  exact ⟨_, hτ.append hσ⟩

theorem parsed_create : create.Parsed := by
  refine .obj (by decide) ?_
  simp only [List.forall_mem_cons, List.not_mem_nil, false_imp_iff, implies_true, and_true]
  exact ⟨.str _, .str _, .str _⟩

theorem parsed_claim : claim.Parsed := by
  refine .obj (by decide) ?_
  simp only [List.forall_mem_cons, List.not_mem_nil, false_imp_iff, implies_true, and_true]
  exact ⟨.str _, .str _⟩

theorem parsed_approve : approve.Parsed := by
  refine .obj (by decide) ?_
  simp only [List.forall_mem_cons, List.not_mem_nil, false_imp_iff, implies_true, and_true]
  exact ⟨.str _, .str _⟩

theorem parsed_reportPlan : reportPlan.Parsed := by
  have hraw : raw.Distinct := by
    refine .obj (by decide) ?_
    simp only [List.forall_mem_cons, List.not_mem_nil, false_imp_iff, implies_true, and_true]
    refine ⟨.str _, .arr ?_⟩
    simp only [List.forall_mem_cons, List.not_mem_nil, false_imp_iff, implies_true, and_true]
    refine ⟨.obj (by decide) ?_, .obj (by decide) ?_⟩
    · simp only [List.forall_mem_cons, List.not_mem_nil, false_imp_iff, implies_true, and_true]
      exact ⟨.str _, .str _⟩
    · simp only [List.forall_mem_cons, List.not_mem_nil, false_imp_iff, implies_true, and_true]
      refine ⟨.str _, .obj (by decide) ?_⟩
      simp only [List.forall_mem_cons, List.not_mem_nil, false_imp_iff, implies_true, and_true]
      exact ⟨.num _, .arr fun _ hx => by cases hx⟩
  refine .obj (by decide) ?_
  simp only [List.forall_mem_cons, List.not_mem_nil, false_imp_iff, implies_true, and_true]
  exact ⟨.str _, .str _, hraw⟩

theorem parsed_progress : progress.Parsed := by
  refine .obj (by decide) ?_
  simp only [List.forall_mem_cons, List.not_mem_nil, false_imp_iff, implies_true, and_true]
  exact ⟨.str _, .str _, .num _, .str _⟩

theorem fresh_start : Fresh start := ⟨fun _ _ => rfl, fun _ horder => by cases horder⟩

theorem leads_planned : Leads start planned ∧ Fresh planned := by
  obtain ⟨hcreate, hfresh⟩ := leads_after parsed_create fresh_start
  obtain ⟨hclaim, hfresh⟩ := leads_after parsed_claim hfresh
  obtain ⟨hplan, hfresh⟩ := leads_after parsed_reportPlan hfresh
  exact ⟨(hcreate.trans hclaim).trans hplan, hfresh⟩

theorem leads_approved : Leads start approved ∧ Fresh approved := by
  obtain ⟨hplanned, hfresh⟩ := leads_planned
  obtain ⟨happrove, hfresh⟩ := leads_after parsed_approve hfresh
  exact ⟨hplanned.trans happrove, hfresh⟩

theorem leads_executed : Leads approved executed ∧ Fresh executed :=
  leads_after parsed_claim leads_approved.2

theorem leads_at {e : TaskDb Unit × ℕ} {now : ℕ} (h : e.1.now ≤ now) :
    Leads e ({ e.1 with now }, e.2) :=
  ⟨[⟨System.State.idle e.1, .env, System.State.idle { e.1 with now }⟩],
    LTS.Run.cons_iff.2 ⟨rfl, System.Step.env (Or.inl ⟨now, h, rfl⟩), .nil _⟩⟩

theorem fresh_at {e : TaskDb Unit × ℕ} {now : ℕ} (h : Fresh e) : Fresh ({ e.1 with now }, e.2) :=
  ⟨h.tokens, h.outputs⟩

/-- Orders may be added while there are none. -/
theorem leads_orders {e : TaskDb Unit × ℕ} (orders : OrderTable) (h : e.1.orders.rows = []) :
    Leads e ({ e.1 with orders }, e.2) := by
  refine ⟨[⟨System.State.idle e.1, .env, System.State.idle { e.1 with orders }⟩],
    LTS.Run.cons_iff.2 ⟨rfl, System.Step.env (Or.inr (Or.inr (Or.inl ⟨orders, ?_, rfl⟩))), .nil _⟩⟩
  intro orderId order horder
  have hmem : order ∈ e.1.orders.rows := (Table.get_eq_some.1 horder).1
  rw [h] at hmem
  cases hmem

/-- Two hours after a time. -/
def later (now : ℕ) : ℕ := now + 2 * 60 * 60 * 1000

theorem le_later (now : ℕ) : now ≤ later now := by
  unfold later
  omega

/-- The task two hours after its approval. -/
def late : TaskDb Unit × ℕ := ({ approved.1 with now := later approved.1.now }, approved.2)

/-- The worker comes too late. -/
def missed : TaskDb Unit × ℕ := after claim late

theorem distinct_orders : ∀ o ∈ orders.rows, ∀ x, o.output = some x → x.Distinct := by
  intro o ho x hx
  rw [orders, List.mem_singleton] at ho
  rw [ho, order, Option.some.injEq] at hx
  rw [← hx]
  exact .str _

theorem Leads.pay {e : TaskDb Unit × ℕ} (hfresh : Fresh e) (h : e.1.orders.rows = []) :
    Leads e (after progress ({ e.1 with orders }, e.2)) := by
  have hpaid : Fresh ({ e.1 with orders }, e.2) := ⟨hfresh.tokens, distinct_orders⟩
  exact (leads_orders orders h).trans (leads_after parsed_progress hpaid).1

theorem leads_progressed (h : executed.1.orders.rows = []) : Leads executed progressed :=
  .pay leads_executed.2 h

-- From here on the states are only used through these lemmas.
attribute [irreducible] planned approved executed paid progressed

theorem leads_missed : Leads approved late ∧ Leads late missed := by
  have hlate : Leads approved late := leads_at (le_later approved.1.now)
  have hfresh : Fresh late := fresh_at leads_approved.2
  exact ⟨hlate, (leads_after parsed_claim hfresh).1⟩

/-- The only task. -/
theorem row_of_shape {e : TaskDb Unit × ℕ} {status : TaskStatus} {n : ℕ} (h : shape e = ([status], n)) :
    ∃ row, e.1.tasks.get row.id = some row ∧ row.status = status := by
  obtain ⟨row, hrow⟩ := List.map_eq_singleton_iff.1 (Prod.mk.inj h).1
  exact ⟨row, Table.get_eq_some.2 ⟨by rw [hrow.1]; simp, rfl⟩, hrow.2⟩

/-- Whether the approval has run out, whether there was one, and whether nobody has executed. -/
def overdue (e : TaskDb Unit × ℕ) : List (Option Bool × Bool × Bool) :=
  e.1.tasks.rows.map fun row => (row.approvalExpiresAt.map fun expiry => decide (expiry ≤ e.1.now),
    row.approvedPlanHash.isSome, row.executionWorker.isNone)

/-- The answer to the creation. -/
def creation : Except ApiError Response := ((handle .plain arc create).exec respond start).1

/-- A task was created. -/
def isCreated : Except ApiError Response → Bool
  | .ok (.created _ _) => true
  | _ => false

/-- The tasks, with the number of results, and whether there are orders. -/
def results (e : TaskDb Unit × ℕ) : List (TaskStatus × ℕ) × Bool :=
  (e.1.tasks.rows.map fun row => (row.status, row.stepResults.length), e.1.orders.rows.isEmpty)

/-- The states of the task, and the answer to its creation; they are evaluated together, because one
state is made from another. -/
theorem shapes : shape approved = ([.approved], 1) ∧ shape executed = ([.running], 2) ∧
    overdue late = [(some true, true, true)] ∧ isCreated creation = true ∧
    results executed = ([(.running, 0)], true) ∧ results progressed = ([(.running, 1)], false) := by
  decide +kernel

/-- The states of two runs, with names for them: they are never computed. -/
theorem Leads.states {e e' e'' : TaskDb Unit × ℕ} (h : Leads e e') (h' : Leads e' e'') :
    ∃ d d', d = e'.1 ∧ d' = e''.1 ∧
      (∃ τ, (system .plain .identity arc).lts.Run (System.State.idle e.1) τ (System.State.idle d)) ∧
      ∃ σ, (system .plain .identity arc).lts.Run (System.State.idle d) σ (System.State.idle d') :=
  ⟨_, _, rfl, rfl, h, h'⟩

theorem leads_to_progressed : Leads executed progressed :=
  leads_progressed (List.isEmpty_iff.1 (Prod.mk.inj shapes.2.2.2.2.1).2)

/-- A task with a result, and the order that was delivered for it. -/
theorem accounted_progressed : ∃ row recorded before paid order result,
    progressed.1.tasks.get row.id = some row ∧ row.stepResults = [recorded] ∧
      row.executionWorker.isSome = true ∧ row.approvedPlanHash = some paid.planHash ∧
      Delivery .plain arc progressed.1.orders row 0 recorded before paid order result := by
  obtain ⟨row, hrow⟩ := List.map_eq_singleton_iff.1 (Prod.mk.inj shapes.2.2.2.2.2).1
  obtain ⟨hrows, heq⟩ := hrow
  obtain ⟨recorded, hrecorded⟩ := List.length_eq_one_iff.1 (Prod.mk.inj heq).2
  have hget : progressed.1.tasks.get row.id = some row := Table.get_eq_some.2 ⟨by rw [hrows]; simp, rfl⟩
  obtain ⟨d, d', -, hd', ⟨τ, hrun⟩, σ, hrun'⟩ :=
    (leads_approved.1.trans leads_executed.1).states leads_to_progressed
  rw [← hd'] at hget ⊢
  have haccounted := accounted (hrun.append hrun') hget
  obtain ⟨before, paid, order, result, hdelivery, happroved, -⟩ :=
    haccounted.delivered 0 recorded (by rw [hrecorded]; rfl)
  exact ⟨row, recorded, before, paid, order, result, hget, hrecorded,
    haccounted.started (Or.inl (by rw [hrecorded]; simp)), happroved, hdelivery⟩

/-- A task that was approved, before and after it is executed. -/
theorem tasks_become_executed : ∃ row row', approved.1.tasks.get row.id = some row ∧
    row.status = .approved ∧ executed.1.tasks.get row.id = some row' ∧ row.Becomes .plain row' := by
  obtain ⟨row, hrow, hstatus⟩ := row_of_shape shapes.1
  obtain ⟨d, d', hd, hd', ⟨τ, hrun⟩, σ, hrun'⟩ := leads_approved.1.states leads_executed.1
  rw [← hd] at hrow ⊢
  rw [← hd']
  obtain ⟨row', hrow', hbecomes, -⟩ := tasks_become hrun hrun' hrow
  exact ⟨row, row', hrow, hstatus, hrow', hbecomes⟩

/-- No statement of the task was refused by a constraint. -/
theorem never_refused_executed : ¬ ∃ e ∈ executed.1.refused,
    e = ApiError.checkViolation ∨ e = ApiError.raised := by
  obtain ⟨d, d', -, hd', ⟨τ, hrun⟩, σ, hrun'⟩ := leads_approved.1.states leads_executed.1
  rw [← hd']
  rintro ⟨e, he, hbad⟩
  obtain ⟨hcheck, hraised⟩ := never_refused (hrun.append hrun') e he
  exact hbad.elim hcheck hraised

/-- The claims for the plan and for the execution. -/
theorem claims_exclusive_executed : ∃ g g', executed.1.granted = [g, g'] ∧
    (g.token = g'.token → g.worker = g'.worker ∧ g.taskId = g'.taskId) := by
  obtain ⟨g, g', hgranted⟩ := List.length_eq_two.1 (Prod.mk.inj shapes.2.1).2
  obtain ⟨d, d', -, hd', ⟨τ, hrun⟩, σ, hrun'⟩ := leads_approved.1.states leads_executed.1
  rw [← hd'] at hgranted ⊢
  have hg : g ∈ d'.granted := by rw [hgranted]; simp
  have hg' : g' ∈ d'.granted := by rw [hgranted]; simp
  exact ⟨g, g', hgranted, (claims_exclusive (hrun.append hrun') hg hg').1⟩

/-- Nobody has executed the task when its approval expires. -/
theorem late_expired : ∃ row expiry, late.1.tasks.get row.id = some row ∧
    row.approvalExpiresAt = some expiry ∧ row.approvedPlanHash.isSome = true ∧
    row.executionWorker = none ∧ expiry ≤ late.1.now := by
  obtain ⟨row, hrow, heq⟩ := List.map_eq_singleton_iff.1 shapes.2.2.1
  simp only [Prod.mk.injEq] at heq
  obtain ⟨hexpiry, happroved, hworker⟩ := heq
  obtain ⟨expiry, hexpiry, hle⟩ := Option.map_eq_some_iff.1 hexpiry
  exact ⟨row, expiry, Table.get_eq_some.2 ⟨by rw [hrow]; simp, rfl⟩, hexpiry, happroved,
    Option.isNone_iff_eq_none.1 hworker, of_decide_eq_true hle⟩

/-- The worker that comes too late executes nothing. -/
theorem expired_approval_missed : ∃ row, missed.1.tasks.get row.id = some row ∧
    row.executionWorker = none ∧ row.stepResults = [] := by
  obtain ⟨row, expiry, hrow, hexpiry, happroved, hworker, hle⟩ := late_expired
  obtain ⟨d, d', hd, hd', ⟨τ, hrun⟩, σ, hrun'⟩ :=
    (leads_approved.1.trans leads_missed.1).states leads_missed.2
  rw [← hd] at hrow hle
  rw [← hd']
  obtain ⟨row', hrow', hworker', hresults, -⟩ :=
    expired_approval hrun hrun' hrow hexpiry happroved hworker hle
  exact ⟨row', by rw [id_of_get hrow' rfl]; exact hrow', hworker', hresults⟩

/-- The task that is executed is listed. -/
theorem tasks_listed_executed : ∃ row rows d', executed.1.tasks.get row.id = some row ∧
    selectTasks agentId userId executed.1 = .ok (rows, d') ∧
    openCount agentId executed.1.tasks ≤ 25 ∧
    ((∃ worker, row.claimable executed.1.now worker = true) → row.agentId = agentId →
      row.userId = userId → row ∈ rows) := by
  obtain ⟨row, hrow, -⟩ := row_of_shape shapes.2.1
  obtain ⟨d, d', -, hd', ⟨τ, hrun⟩, σ, hrun'⟩ := leads_approved.1.states leads_executed.1
  rw [← hd'] at hrow ⊢
  have hrows : selectTasks agentId userId d' = .ok (_, d') := rfl
  obtain ⟨hlimit, hlisted⟩ := tasks_listed (hrun.append hrun') hrows
  exact ⟨row, _, _, hrow, hrows, hlimit, fun hclaim hagent huser =>
    hlisted row.id row hrow hagent huser hclaim⟩

theorem creation_ok : ∃ row replayed, creation = .ok (.created row replayed) := by
  have hcreated := shapes.2.2.2.1
  unfold isCreated at hcreated
  split at hcreated
  · rename_i row replayed h
    exact ⟨row, replayed, h⟩
  · cases hcreated

/-- The answer to a request that nothing disturbs. -/
theorem answers_after {request : Request} {e : TaskDb Unit × ℕ} {r : Except ApiError Response}
    (hfresh : Fresh e) (hr : ((handle .plain arc request).exec respond e).1 = r) :
    ∃ t, t.world = (after request e).1 ∧ (system .plain .identity arc).Answers
      (System.State.idle e.1) () (handle .plain arc request) r t := by
  obtain ⟨hreach, -⟩ := Prog.Reaches.exec_view Prod.fst Fresh respond_sem (handle .plain arc request)
    e hfresh
  rw [hr] at hreach
  exact ⟨_, rfl, System.answers_of_reaches (S := system .plain .identity arc)
    (s := System.State.idle e.1) (i := ()) hreach⟩

/-- The task that is created. -/
theorem created_once_start : ∃ row row' : TaskRow,
    (after create start).1.tasks.get row.id = some row' ∧ row.Becomes .plain row' ∧
      row.userId = userId := by
  obtain ⟨row, replayed, hcreation⟩ := creation_ok
  obtain ⟨t, hworld, hanswers⟩ := answers_after fresh_start hcreation
  obtain ⟨row', -, hrow', hbecomes, -, huser, -⟩ :=
    created_once (.nil _) rfl parsed_create hanswers (.nil _)
  exact ⟨row, row', hworld ▸ hrow', hbecomes, huser⟩

end Sample

end GeneralTasks

end Obolos
