import Obolos.Platform.Tasks
import Obolos.Tasks.Inputs

/-!
# What is always true of the tasks

`TaskRow.Ok` : a plan was created for the budget of the task, it is approved before anything is paid,
and a cancelled task was never executed.  `TaskRow.Delivered` : the results are verified deliveries of
the orders of the approved plan.  `TaskRow.Follows` is what a statement may make of a row; it never
meets an objection of the constraints or the trigger (`follows_approve` and so on).  `Inv` adds what is
true of the whole database: an agent has at most 25 open tasks, a key belongs to one task, and every
claim in the history was allowed.
-/

namespace Obolos

namespace GeneralTasks

open Json (canonicalJson Same Distinct)
open Marketplace (EconomyDeployment OrderRow)
open Tasks (createTaskPlan TaskPlan)

/-! ### Stored values -/

section Stored

variable {J : Jsonb} {N : Json.Numerals} {x y : Json}

theorem canonicalJson_same (hx : x.Distinct) (hy : y.Distinct) (h : Same x y) :
    canonicalJson N x = canonicalJson N y := by
  rw [canonicalJson, canonicalJson, (Json.same_iff_sortKeys hx hy).1 h]

theorem finite_same (hx : x.Distinct) (hy : y.Distinct) (h : Same x y) : x.finite = y.finite := by
  rw [← Json.finite_sortKeys x, ← Json.finite_sortKeys y, (Json.same_iff_sortKeys hx hy).1 h]

/-- A column keeps a value. -/
structure Kept (y x : Json) : Prop where
  distinct : y.Distinct
  finite : y.finite = true
  same : Same y x

theorem kept_store (hd : x.Distinct) (hf : x.finite = true) (h : J.store x = some y) : Kept y x := by
  obtain ⟨hy, hsame⟩ := J.store_same hd hf h
  exact ⟨hy, (finite_same hy hd hsame).trans hf, hsame⟩

theorem kept_items {items items' : List Json} (hd : ∀ x ∈ items, x.Distinct)
    (hf : ∀ x ∈ items, x.finite = true) (h : storeItems J items = some items') :
    List.Forall₂ Kept items' items := by
  obtain ⟨y, hstore, harr⟩ := Option.bind_eq_some_iff.1 h
  obtain ⟨hy, hsame⟩ := J.store_same (.arr hd) (Json.finiteItems_of_forall hf) hstore
  cases hsame with
  | @arr items'' _ hsame =>
    obtain rfl : items'' = items' := Option.some.inj harr
    cases hy with
    | arr hitems =>
      refine List.forall₂_iff_get.2 ⟨hsame.length_eq, fun i h₁ h₂ => ?_⟩
      have hxy := hsame.get h₁ h₂
      have hx := hitems _ (List.get_mem items'' ⟨i, h₁⟩)
      have hy := hd _ (List.get_mem items ⟨i, h₂⟩)
      exact ⟨hx, (finite_same hx hy hxy).trans (hf _ (List.get_mem items ⟨i, h₂⟩)), hxy⟩

theorem map_kept {items items' : List Json} (hd : ∀ x ∈ items, x.Distinct)
    (h : List.Forall₂ Kept items' items) :
    items'.map (canonicalJson N) = items.map (canonicalJson N) := by
  induction h with
  | nil => rfl
  | cons hx _ ih =>
    rw [List.map_cons, List.map_cons, ih fun y hy => hd y (List.mem_cons_of_mem _ hy),
      canonicalJson_same hx.distinct (hd _ List.mem_cons_self) hx.same]

end Stored

/-! ### Rows -/

variable {ι : Type} {H : Host} {J : Jsonb} {deployment : Option EconomyDeployment}

/-- The plan was created for the budget, and has the hash. -/
structure Created (H : Host) (budgetAtomic : ℕ) (planHash : Bytes32) (plan : Json) : Prop where
  distinct : plan.Distinct
  hash : plan.canonicalJsonHash H = .ok planHash
  created : ∃ value catalog p,
    createTaskPlan H value catalog (JsString.decimal budgetAtomic) = .ok p ∧
      (planJson p).Distinct ∧ Same plan (planJson p)

/-- A result that a column can keep. -/
structure Storable (x : Json) : Prop where
  distinct : x.Distinct
  finite : x.finite = true

/-- What is true of a row. -/
structure TaskRow.Ok (H : Host) (row : TaskRow) : Prop where
  consistent : row.Consistent
  planned : ∀ plan, row.plan = some plan →
    ∃ planHash, row.planHash = some planHash ∧ Created H row.budgetAtomic planHash plan
  unplanned : row.status = .queued ∨ row.status = .planning ∨
    (row.status = .blocked ∧ row.approvedPlanHash = none) → row.plan = none
  waiting : row.status = .needsApproval → row.plan.isSome = true ∧ row.approvedPlanHash = none
  approved : row.approvedPlanHash.isSome = true → row.planHash = row.approvedPlanHash
  executed : row.executionWorker.isSome = true → row.approvedPlanHash.isSome = true
  phase : row.claimPhase = some .execute →
    row.executionWorker.isSome = true ∧ row.claimWorker = row.executionWorker
  cancelled : row.status = .cancelled → row.executionWorker = none
  paid : row.stepResults ≠ [] → row.executionWorker.isSome = true
  results : ∀ x ∈ row.stepResults, Storable x

namespace TaskRow

variable {row row' row'' : TaskRow} {now : ℕ}

theorem Ok.plan_of_approved (h : row.Ok H) (ha : row.approvedPlanHash.isSome = true) :
    row.plan.isSome = true := by
  rw [h.consistent.plan, h.approved ha]
  exact ha

/-- A task without a plan is not approved. -/
theorem Ok.approved_none (h : row.Ok H) (hplan : row.plan = none) : row.approvedPlanHash = none := by
  cases ha : row.approvedPlanHash with
  | none => rfl
  | some hash =>
    have hsome := h.plan_of_approved (by rw [ha]; rfl)
    rw [hplan] at hsome
    cases hsome

/-- What a statement may make of a row. -/
structure Follows (H : Host) (row row' : TaskRow) : Prop where
  identity : row'.toTaskIdentity = row.toTaskIdentity
  revision : row'.revision = row.revision + 1
  replaces : Replaces H.numerals row row'
  closed : row.isOpen = false → row'.status = row.status
  ok : row'.Ok H

/-- What becomes of a row in any time. -/
structure Becomes (H : Host) (row row' : TaskRow) : Prop where
  identity : row'.toTaskIdentity = row.toTaskIdentity
  revision : row.revision ≤ row'.revision
  same : row'.revision = row.revision → row' = row
  approved : row.approvedPlanHash.isSome = true →
    row'.plan.map (canonicalJson H.numerals) = row.plan.map (canonicalJson H.numerals) ∧
      row'.planHash = row.planHash ∧ row'.approvedPlanHash = row.approvedPlanHash ∧
      row'.approvalExpiresAt = row.approvalExpiresAt
  executed : row.executionWorker.isSome = true → row'.executionWorker = row.executionWorker
  closed : row.isOpen = false → row'.status = row.status
  appends : row.stepResults.map (canonicalJson H.numerals) <+:
    row'.stepResults.map (canonicalJson H.numerals)

theorem Becomes.refl (row : TaskRow) : row.Becomes H row :=
  ⟨rfl, le_rfl, fun _ => rfl, fun _ => ⟨rfl, rfl, rfl, rfl⟩, fun _ => rfl, fun _ => rfl,
    List.prefix_rfl⟩

theorem isOpen_congr (h : row'.status = row.status) : row'.isOpen = row.isOpen := by
  rw [isOpen, isOpen, h]

theorem Becomes.trans (h : row.Becomes H row') (h' : row'.Becomes H row'') :
    row.Becomes H row'' := by
  refine ⟨h'.identity.trans h.identity, h.revision.trans h'.revision, fun heq => ?_, fun ha => ?_,
    fun hw => ?_, fun hc => ?_, h.appends.trans h'.appends⟩
  · have hrevision := h.revision
    have hrevision' := h'.revision
    rw [h'.same (by omega), h.same (by omega)]
  · obtain ⟨hplan, hhash, happroved, hexpires⟩ := h.approved ha
    obtain ⟨hplan', hhash', happroved', hexpires'⟩ := h'.approved (by rw [happroved]; exact ha)
    exact ⟨hplan'.trans hplan, hhash'.trans hhash, happroved'.trans happroved,
      hexpires'.trans hexpires⟩
  · have hworker := h.executed hw
    exact (h'.executed (by rw [hworker]; exact hw)).trans hworker
  · have hstatus := h.closed hc
    exact (h'.closed (by rw [isOpen_congr hstatus]; exact hc)).trans hstatus

theorem Follows.becomes (h : row.Follows H row') : row.Becomes H row' :=
  ⟨h.identity, by rw [h.revision]; omega, fun heq => by rw [h.revision] at heq; omega,
    h.replaces.approved, h.replaces.executed, h.closed, h.replaces.appends⟩

/-- The new version of a row, with its revision. -/
def next (row new : TaskRow) : TaskRow := { new with revision := row.revision + 1 }

/-! ### The new versions -/

theorem follows_approve (h : row.Ok H) (hstatus : row.status = .needsApproval) :
    row.Follows H (row.next (row.approve now)) := by
  obtain ⟨hplan, happroved⟩ := h.waiting hstatus
  have hworker : row.executionWorker = none := by
    cases hw : row.executionWorker with
    | none => rfl
    | some w =>
      have hsome := h.executed (by rw [hw]; rfl)
      rw [happroved] at hsome
      cases hsome
  have hhash : row.planHash.isSome = true := h.consistent.plan ▸ hplan
  refine ⟨rfl, rfl, ⟨rfl, fun ha => ?_, fun _ => rfl, List.prefix_rfl⟩, fun hc => ?_, ?_⟩
  · rw [happroved] at ha
    cases ha
  · rw [isOpen, hstatus] at hc
    cases hc
  · exact {
      consistent := ⟨h.consistent.terms, h.consistent.plan, fun hash heq => ⟨Or.inr heq, rfl⟩, fun _ => hhash,
        fun hs => (by rcases hs with hs | hs <;> cases hs), fun hs => by cases hs⟩
      planned := h.planned
      unplanned := fun hs => by
        rcases hs with hs | hs | ⟨hs, -⟩ <;> cases hs
      waiting := fun hs => by cases hs
      approved := fun _ => rfl
      executed := fun _ => hhash
      phase := h.phase
      cancelled := fun hs => by cases hs
      paid := h.paid
      results := h.results }

theorem follows_cancel (h : row.Ok H) (hopen : row.isOpen = true)
    (hworker : row.executionWorker = none) : row.Follows H (row.next (row.cancel now)) := by
  refine ⟨rfl, rfl, ⟨rfl, fun _ => ⟨rfl, rfl, rfl, rfl⟩, fun _ => rfl, List.prefix_rfl⟩,
    fun hc => ?_, ?_⟩
  · rw [hopen] at hc
    cases hc
  · exact {
      consistent := ⟨h.consistent.terms, h.consistent.plan, h.consistent.approved,
        fun hs => (by rcases hs with hs | hs | hs <;> cases hs),
        fun hs => (by rcases hs with hs | hs <;> cases hs), fun hs => by cases hs⟩
      planned := h.planned
      unplanned := fun hs => by
        rcases hs with hs | hs | ⟨hs, -⟩ <;> cases hs
      waiting := fun hs => by cases hs
      approved := h.approved
      executed := h.executed
      phase := h.phase
      cancelled := fun _ => hworker
      paid := h.paid
      results := h.results }

theorem follows_retry (h : row.Ok H) (hstatus : row.status = .blocked) :
    row.Follows H (row.next (row.retry now)) := by
  have hnew : (row.next (row.retry now)).status =
      if row.approvedPlanHash.isSome then .approved else .queued := rfl
  refine ⟨rfl, rfl, ⟨rfl, fun _ => ⟨rfl, rfl, rfl, rfl⟩, fun _ => rfl, List.prefix_rfl⟩,
    fun hc => ?_, ?_⟩
  · rw [isOpen, hstatus] at hc
    cases hc
  · refine {
      consistent := ⟨h.consistent.terms, h.consistent.plan, h.consistent.approved, fun hs => ?_, fun hs => ?_,
        fun hs => ?_⟩
      planned := h.planned
      unplanned := fun hs => ?_
      waiting := fun hs => ?_
      approved := h.approved
      executed := h.executed
      phase := h.phase
      cancelled := fun hs => ?_
      paid := h.paid
      results := h.results }
    · rw [hnew] at hs
      split_ifs at hs with ha
      · exact ha
      · simp at hs
    · rw [hnew] at hs
      split_ifs at hs <;> simp at hs
    · rw [hnew] at hs
      split_ifs at hs
    · rw [hnew] at hs
      split_ifs at hs with ha
      · simp at hs
      · exact h.unplanned (Or.inr (Or.inr ⟨hstatus, by simpa using ha⟩))
    · rw [hnew] at hs
      split_ifs at hs
    · rw [hnew] at hs
      split_ifs at hs

/-- What a worker may claim. -/
theorem claimable_cases {worker : JsString} (h : row.claimable now worker = true) :
    (row.claimUntil.all (fun lease => decide (lease < now)) = true ∨ row.claimWorker = some worker) ∧
    ((row.status = .queued ∨ row.status = .planning) ∨
      ((row.status = .approved ∨ row.status = .running) ∧
        (∀ w, row.executionWorker = some w → w = worker) ∧
        (row.executionWorker.isSome = true ∨ ∃ t, row.approvalExpiresAt = some t ∧ now < t))) := by
  simp only [claimable, isFree, Bool.or_eq_true, Bool.and_eq_true, decide_eq_true_eq] at h
  rcases h with ⟨hstatus, hfree⟩ | ⟨⟨⟨hstatus, hworker⟩, hexpires⟩, hfree⟩
  · exact ⟨hfree, Or.inl hstatus⟩
  · refine ⟨hfree, Or.inr ⟨hstatus, fun w hw => ?_, ?_⟩⟩
    · rw [hw] at hworker
      exact of_decide_eq_true hworker
    · rcases hexpires with hsome | hany
      · exact Or.inl hsome
      · obtain ⟨t, ht, hlt⟩ := (Option.any_eq_true _ _).1 hany
        exact Or.inr ⟨t, ht, of_decide_eq_true hlt⟩

/-- The worker that claims an approved task executes it. -/
theorem executionWorker_claim {worker token : JsString} (h : row.Ok H)
    (hclaim : row.claimable now worker = true) (ha : row.approvedPlanHash.isSome = true) :
    (row.next (row.claim now worker token)).executionWorker = some worker := by
  show (if row.approvedPlanHash.isSome then some (row.executionWorker.getD worker)
    else row.executionWorker) = _
  rw [if_pos ha]
  rcases (claimable_cases hclaim).2 with hstatus | ⟨-, hsame, -⟩
  · have hnone := h.approved_none (h.unplanned (by tauto))
    rw [hnone] at ha
    cases ha
  · cases hw : row.executionWorker with
    | none => rfl
    | some w => rw [hsame w hw]; rfl

theorem follows_claim {worker : JsString} (token : JsString) (h : row.Ok H)
    (hclaim : row.claimable now worker = true) :
    row.Follows H (row.next (row.claim now worker token)) := by
  obtain ⟨-, hcases⟩ := claimable_cases hclaim
  have hnew : (row.next (row.claim now worker token)).status =
      if row.approvedPlanHash.isSome then .running else .planning := rfl
  have hworker' : (row.next (row.claim now worker token)).executionWorker =
      if row.approvedPlanHash.isSome then some (row.executionWorker.getD worker)
      else row.executionWorker := rfl
  have hphase : (row.next (row.claim now worker token)).claimPhase =
      some (if row.approvedPlanHash.isSome then .execute else .plan) := rfl
  -- A plan that is claimed for execution is approved, and its worker stays.
  have hkeeps : row.executionWorker.isSome = true →
      (row.next (row.claim now worker token)).executionWorker = row.executionWorker := by
    intro hw
    rw [hworker']
    split_ifs
    · obtain ⟨w, hw⟩ := Option.isSome_iff_exists.1 hw
      rw [hw]
      rfl
    · rfl
  have hexecution : row.approvedPlanHash.isSome = true →
      (row.next (row.claim now worker token)).executionWorker = some worker :=
    executionWorker_claim h hclaim
  refine ⟨rfl, rfl, ⟨rfl, fun _ => ⟨rfl, rfl, rfl, rfl⟩, hkeeps, List.prefix_rfl⟩,
    fun hc => ?_, ?_⟩
  · rw [isOpen] at hc
    rcases hcases with (hs | hs) | ⟨hs | hs, -⟩ <;> rw [hs] at hc <;> cases hc
  · refine {
      consistent := ⟨h.consistent.terms, h.consistent.plan, h.consistent.approved, fun hs => ?_, fun hs => ?_,
        fun hs => ?_⟩
      planned := h.planned
      unplanned := fun hs => ?_
      waiting := fun hs => ?_
      approved := h.approved
      executed := fun hw => ?_
      phase := fun hp => ?_
      cancelled := fun hs => ?_
      paid := fun hne => ?_
      results := h.results }
    · rw [hnew] at hs
      split_ifs at hs with ha
      · exact ha
      · simp at hs
    · rw [hnew] at hs
      split_ifs at hs with ha
      · rw [hexecution ha]
        rfl
      · simp at hs
    · rw [hnew] at hs
      split_ifs at hs
    · rw [hnew] at hs
      split_ifs at hs with ha
      · simp at hs
      · rcases hcases with hstatus | ⟨hstatus, -⟩
        · exact h.unplanned (by tauto)
        · exact absurd (h.consistent.authorized (by tauto)) ha
    · rw [hnew] at hs
      split_ifs at hs
    · rw [hworker'] at hw
      split_ifs at hw with ha
      · exact ha
      · exact h.executed hw
    · rw [hphase] at hp
      split_ifs at hp with ha
      · rw [hexecution ha]
        exact ⟨rfl, rfl⟩
      · cases hp
    · rw [hnew] at hs
      split_ifs at hs
    · have hw := h.paid hne
      rw [hkeeps hw]
      exact hw

end TaskRow

/-! ### Deliveries -/

/-- A result is what `verifyPaidStep` made of the order of its step, which was paid for and delivered:
`before` is the row that was verified, when it had the results before this one. -/
structure Delivery (H : Host) (deployment : Option EconomyDeployment) (orders : OrderTable)
    (row : TaskRow) (index : ℕ) (recorded : Json) (before : TaskRow) (paid : PaidStep)
    (order : OrderRow) (result : TaskStepResult) : Prop where
  earlier : before.Becomes H row
  count : before.stepResults.length = index
  approved : approvedStep H deployment before index = .ok paid
  stored : orders.get paid.orderId = some order
  user : order.userId = row.userId
  agent : order.platformAgentId = row.agentId
  fulfilled : order.state = .fulfilled
  delivered : deliveredStep H before index paid order = .ok result
  text : canonicalJson H.numerals recorded = canonicalJson H.numerals result.json

/-- The value is the result of a step of the row. -/
def HasResult (H : Host) (deployment : Option EconomyDeployment) (orders : OrderTable) (row : TaskRow)
    (index : ℕ) (recorded : Json) : Prop :=
  ∃ before paid order result, Delivery H deployment orders row index recorded before paid order result

section Deliveries

variable {orders orders' : OrderTable} {row row' : TaskRow} {index : ℕ} {x x' : Json}

theorem OrdersGo.refl (orders : OrderTable) : OrdersGo orders orders :=
  fun _ order h => ⟨order, h, .refl order⟩

theorem OrdersGo.trans {orders'' : OrderTable} (h : OrdersGo orders orders')
    (h' : OrdersGo orders' orders'') : OrdersGo orders orders'' := by
  intro orderId order horder
  obtain ⟨order', horder', hb⟩ := h orderId order horder
  obtain ⟨order'', horder'', hb'⟩ := h' orderId order' horder'
  exact ⟨order'', horder'', hb.trans hb'⟩

/-- The order of a result stays. -/
theorem HasResult.go (h : HasResult H deployment orders row index x) (hgo : OrdersGo orders orders') :
    HasResult H deployment orders' row index x := by
  obtain ⟨before, paid, order, result, hd⟩ := h
  obtain ⟨order', horder', -, hsame⟩ := hgo paid.orderId order hd.stored
  rw [hsame hd.fulfilled] at horder'
  exact ⟨before, paid, order, result, { hd with stored := horder' }⟩

theorem HasResult.becomes (h : HasResult H deployment orders row index x) (hb : row.Becomes H row')
    (htext : canonicalJson H.numerals x' = canonicalJson H.numerals x) :
    HasResult H deployment orders row' index x' := by
  obtain ⟨before, paid, order, result, hd⟩ := h
  have hrow : row'.userId = row.userId ∧ row'.agentId = row.agentId := by
    rw [hb.identity]
    exact ⟨rfl, rfl⟩
  exact ⟨before, paid, order, result, { hd with
    earlier := hd.earlier.trans hb
    user := hd.user.trans hrow.1.symm
    agent := hd.agent.trans hrow.2.symm
    text := htext.trans hd.text }⟩

/-- Every result of a row was delivered. -/
def TaskRow.Delivered (H : Host) (deployment : Option EconomyDeployment) (orders : OrderTable)
    (row : TaskRow) : Prop :=
  ∀ index recorded, row.stepResults[index]? = some recorded →
    HasResult H deployment orders row index recorded

/-- The results that a row has more were delivered. -/
def TaskRow.Extends (H : Host) (deployment : Option EconomyDeployment) (orders : OrderTable)
    (row row' : TaskRow) : Prop :=
  ∀ index recorded, row.stepResults.length ≤ index → row'.stepResults[index]? = some recorded →
    HasResult H deployment orders row index recorded

namespace TaskRow

theorem extends_same (h : row'.stepResults = row.stepResults) :
    row.Extends H deployment orders row' := by
  intro index recorded hle hget
  rw [h, List.getElem?_eq_none hle] at hget
  cases hget

theorem Delivered.go (h : row.Delivered H deployment orders) (hgo : OrdersGo orders orders') :
    row.Delivered H deployment orders' :=
  fun index recorded hget => (h index recorded hget).go hgo

theorem Delivered.becomes (h : row.Delivered H deployment orders) (hb : row.Becomes H row')
    (hnew : row.Extends H deployment orders row') : row'.Delivered H deployment orders := by
  intro index recorded hget
  rcases Nat.lt_or_ge index row.stepResults.length with hlt | hle
  · -- The result was there before, with the same text.
    have hold : row.stepResults[index]? = some row.stepResults[index] := List.getElem?_eq_getElem hlt
    have htext := List.prefix_iff_getElem?.1 hb.appends index (by rwa [List.length_map])
    rw [List.getElem?_map, hget, List.getElem_map, Option.map_some, Option.some.injEq] at htext
    exact (h index _ hold).becomes hb htext
  · exact (hnew index recorded hle hget).becomes hb rfl

end TaskRow

end Deliveries

/-! ### Reports -/

namespace TaskRow

/-- What the handler of a worker may report of a row. -/
inductive Reports (H : Host) (deployment : Option EconomyDeployment) (orders : OrderTable)
    (row : TaskRow) : Report → Prop
  | plan {plan : Json} {planHash : Bytes32} (status : row.status = .planning)
      (created : Created H row.budgetAtomic planHash plan) :
      Reports H deployment orders row ⟨.needsApproval, some plan, some planHash, row.stepResults, none⟩
  | progress {recorded : Json} {plan : Json} (phase : row.claimPhase = some .execute)
      (status : row.status = .running ∨ row.status = .completed) (plan_eq : row.plan = some plan)
      (next : row.stepResults.length < (stepsOf plan).length)
      (storable : Storable recorded)
      (delivered : HasResult H deployment orders row row.stepResults.length recorded) :
      Reports H deployment orders row
        ⟨row.status, row.plan, row.planHash, row.stepResults ++ [recorded], none⟩
  | complete {plan : Json} (phase : row.claimPhase = some .execute)
      (status : row.status = .running ∨ row.status = .completed) (plan_eq : row.plan = some plan)
      (all : row.stepResults.length = (stepsOf plan).length) :
      Reports H deployment orders row ⟨.completed, row.plan, row.planHash, row.stepResults, none⟩
  | blocked {error : JsString}
      (status : row.status = .planning ∨ row.status = .running ∨ row.status = .blocked) :
      Reports H deployment orders row ⟨.blocked, row.plan, row.planHash, row.stepResults, some error⟩

variable {orders orders' : OrderTable} {row : TaskRow}

/-- The orders may go on before the report is sent. -/
theorem Reports.go {report : Report} (h : Reports H deployment orders row report)
    (hgo : OrdersGo orders orders') : Reports H deployment orders' row report := by
  cases h with
  | plan status created => exact .plan status created
  | progress phase status plan_eq next storable delivered =>
    exact .progress phase status plan_eq next storable (delivered.go hgo)
  | complete phase status plan_eq all => exact .complete phase status plan_eq all
  | blocked status => exact .blocked status

end TaskRow

/-! ### Plans and results that are stored again -/

theorem same_trans {x y z : Json} (hx : x.Distinct) (hy : y.Distinct) (hz : z.Distinct)
    (h : Same x y) (h' : Same y z) : Same x z := by
  rw [Json.same_iff_sortKeys hx hz, (Json.same_iff_sortKeys hx hy).1 h,
    (Json.same_iff_sortKeys hy hz).1 h']

theorem rel_prop {x y : Json} (h : Same x y) (key : String) :
    Option.Rel Same (x.prop key) (y.prop key) := by
  cases h with
  | obj h => exact h (js key)
  | _ => exact .none

/-- The steps of a plan are the same number after it was stored. -/
theorem steps_same {x y : Json} {steps : List Json} (h : Same x y)
    (hsteps : y.prop "steps" = some (.arr steps)) :
    ∃ steps', x.prop "steps" = some (.arr steps') ∧ steps'.length = steps.length := by
  have hrel := rel_prop h "steps"
  rw [hsteps] at hrel
  cases hprop : x.prop "steps" with
  | none =>
    rw [hprop] at hrel
    cases hrel
  | some z =>
    rw [hprop] at hrel
    cases hrel with
    | some hz =>
      cases hz with
      | arr hitems => exact ⟨_, rfl, hitems.length_eq⟩

theorem stepsOf_eq {plan : Json} {steps : List Json} (h : plan.prop "steps" = some (.arr steps)) :
    stepsOf plan = steps := by
  rw [stepsOf, h]
  rfl

section Kept

variable {budget : ℕ} {planHash : Bytes32} {plan plan' : Json}

/-- A plan that was created has a list of steps. -/
theorem Created.steps (h : Created H budget planHash plan) :
    ∃ steps, plan.prop "steps" = some (.arr steps) := by
  obtain ⟨-, -, p, -, -, hsame⟩ := h.created
  obtain ⟨steps, hsteps, -⟩ := steps_same hsame rfl
  exact ⟨steps, hsteps⟩

theorem Created.kept (h : Created H budget planHash plan) (hkept : Kept plan' plan) :
    Created H budget planHash plan' := by
  obtain ⟨value, catalog, p, hp, hdistinct, hsame⟩ := h.created
  exact ⟨hkept.distinct, Json.canonicalJsonHash_same h.distinct hkept.distinct
    (hkept.same.symm hkept.distinct h.distinct) h.hash, value, catalog, p, hp, hdistinct,
    same_trans hkept.distinct h.distinct hdistinct hkept.same hsame⟩

end Kept

namespace TaskRow

variable {row : TaskRow} {now : ℕ} {plan' : Option Json} {results' : List Json} {orders : OrderTable}

/-- The plan that comes back is still the one that was created. -/
theorem Ok.planned_kept {p : Json} (h : row.Ok H) (hplan : Option.Rel Kept plan' row.plan)
    (hp : plan' = some p) : ∃ planHash, row.planHash = some planHash ∧
      Created H row.budgetAtomic planHash p := by
  subst hp
  cases hrow : row.plan with
  | none =>
    rw [hrow] at hplan
    cases hplan
  | some plan =>
    obtain ⟨planHash, hhash, hcreated⟩ := h.planned plan hrow
    rw [hrow] at hplan
    cases hplan with
    | some hkept => exact ⟨planHash, hhash, hcreated.kept hkept⟩

/-- The plan that comes back has the same canonical text. -/
theorem Ok.text_kept (h : row.Ok H) (hplan : Option.Rel Kept plan' row.plan) :
    plan'.map (canonicalJson H.numerals) = row.plan.map (canonicalJson H.numerals) := by
  cases hrow : row.plan with
  | none =>
    rw [hrow] at hplan
    cases hplan
    rfl
  | some plan =>
    obtain ⟨_, -, hcreated⟩ := h.planned plan hrow
    rw [hrow] at hplan
    cases hplan with
    | some hkept =>
      exact congrArg some (canonicalJson_same hkept.distinct hcreated.distinct hkept.same)

/-- A result for every step of the plan counts for the plan that comes back. -/
theorem Ok.counts_kept {results : List Json} {status : TaskStatus} {error : Option JsString}
    (h : row.Ok H) (hplan : Option.Rel Kept plan' row.plan)
    (hresults : List.Forall₂ Kept results' results) (hworker : row.executionWorker.isSome = true)
    (hcounts : ∀ plan, row.plan = some plan → results.length = (stepsOf plan).length) :
    (row.next (row.report now status plan' row.planHash results' error)).CountsSteps := by
  obtain ⟨plan, hrow⟩ := Option.isSome_iff_exists.1 (h.plan_of_approved (h.executed hworker))
  obtain ⟨_, -, hcreated⟩ := h.planned plan hrow
  obtain ⟨steps, hsteps⟩ := hcreated.steps
  have hcount := hcounts plan hrow
  rw [stepsOf_eq hsteps] at hcount
  rw [hrow] at hplan
  cases hplan with
  | @some p _ hkept =>
    obtain ⟨steps', hsteps', hlength⟩ := steps_same hkept.same hsteps
    unfold CountsSteps
    simp only [next, report, Option.bind_some, hsteps', hresults.length_eq, hcount, hlength]

/-- A report that keeps the plan, and appends to the results. -/
theorem follows_kept {status : TaskStatus} {results : List Json} {error : Option JsString}
    (h : row.Ok H) (hplan : Option.Rel Kept plan' row.plan)
    (hresults : List.Forall₂ Kept results' results) (happended : row.stepResults <+: results)
    (hstorable : ∀ x ∈ results, Storable x)
    (hpaid : results ≠ [] → row.executionWorker.isSome = true)
    (hclosed : row.isOpen = false → status = row.status)
    (hstatus : (status = .blocked ∧ (row.approvedPlanHash = none → row.plan = none)) ∨
      ((status = .running ∨ status = .completed) ∧ row.executionWorker.isSome = true))
    (hcounts : status = .completed → ∀ plan, row.plan = some plan →
      results.length = (stepsOf plan).length) :
    row.Follows H (row.next (row.report now status plan' row.planHash results' error)) := by
  have hsome : plan'.isSome = row.plan.isSome := by
    generalize row.plan = plan at hplan
    cases hplan <;> rfl
  have hdistinct : ∀ x ∈ results, x.Distinct := fun x hx => (hstorable x hx).distinct
  refine ⟨rfl, rfl, ⟨rfl, fun _ => ⟨h.text_kept hplan, rfl, rfl, rfl⟩, fun _ => rfl, ?_⟩, hclosed, ?_⟩
  · show row.stepResults.map _ <+: results'.map _
    rw [map_kept hdistinct hresults]
    exact happended.map _
  · refine {
      consistent := ⟨h.consistent.terms, hsome.trans h.consistent.plan, h.consistent.approved,
        fun hs => ?_, fun hs => ?_, fun hs => ?_⟩
      planned := fun p hp => h.planned_kept hplan hp
      unplanned := fun hs => ?_
      waiting := fun hs => ?_
      approved := h.approved
      executed := h.executed
      phase := h.phase
      cancelled := fun hs => ?_
      paid := fun hne => ?_
      results := fun x hx => ?_ }
    -- A running or completed task is executed by a worker, which needs an approval.
    · change status = _ ∨ status = _ ∨ status = _ at hs
      rcases hstatus with ⟨rfl, -⟩ | ⟨-, hw⟩
      · rcases hs with hs | hs | hs <;> cases hs
      · exact h.executed hw
    · change status = _ ∨ status = _ at hs
      rcases hstatus with ⟨rfl, -⟩ | ⟨-, hw⟩
      · rcases hs with hs | hs <;> cases hs
      · exact hw
    · change status = _ at hs
      rcases hstatus with ⟨rfl, -⟩ | ⟨-, hw⟩
      · cases hs
      · exact h.counts_kept hplan hresults hw (hcounts hs)
    -- Only a blocked task without an approval has no plan.
    · change status = _ ∨ status = _ ∨ (status = _ ∧ row.approvedPlanHash = none) at hs
      have hnone : row.plan = none := by
        rcases hstatus with ⟨rfl, hnone⟩ | ⟨rfl | rfl, -⟩
        · rcases hs with hs | hs | ⟨-, hs⟩
          · cases hs
          · cases hs
          · exact hnone hs
        · rcases hs with hs | hs | ⟨hs, -⟩ <;> cases hs
        · rcases hs with hs | hs | ⟨hs, -⟩ <;> cases hs
      rw [hnone] at hplan
      cases hplan
      rfl
    -- It neither waits for an approval nor is cancelled.
    · change status = _ at hs
      rcases hstatus with ⟨rfl, -⟩ | ⟨rfl | rfl, -⟩ <;> cases hs
    · change status = _ at hs
      rcases hstatus with ⟨rfl, -⟩ | ⟨rfl | rfl, -⟩ <;> cases hs
    · refine hpaid fun hnil => hne ?_
      show results' = []
      rw [hnil] at hresults
      cases hresults
      rfl
    · obtain ⟨i, hi, rfl⟩ := List.getElem_of_mem hx
      have hkept := hresults.get hi (hresults.length_eq ▸ hi)
      exact ⟨hkept.distinct, hkept.finite⟩

/-- What a worker reports. -/
theorem follows_report {report : Report} (h : row.Ok H)
    (hreport : Reports H deployment orders row report)
    (hplan : Option.Rel Kept plan' report.plan)
    (hresults : List.Forall₂ Kept results' report.results) :
    row.Follows H
      (row.next (row.report now report.status plan' report.planHash results' report.error)) := by
  cases hreport with
  | @plan plan planHash status created =>
    -- A task that is planned has no approval yet, hence no worker and no results.
    have hnone := h.unplanned (Or.inr (Or.inl status))
    have happroved := h.approved_none hnone
    have hworker : row.executionWorker = none := by
      cases hw : row.executionWorker with
      | none => rfl
      | some w =>
        have hsome := h.executed (by rw [hw]; rfl)
        rw [happroved] at hsome
        cases hsome
    have hempty : row.stepResults = [] := by
      by_contra hne
      have hsome := h.paid hne
      rw [hworker] at hsome
      cases hsome
    have hnil : results' = [] := by
      change List.Forall₂ Kept results' row.stepResults at hresults
      rw [hempty] at hresults
      cases hresults
      rfl
    subst hnil
    cases hplan with
    | @some plan' _ hkept =>
      refine ⟨rfl, rfl, ⟨rfl, fun ha => ?_, fun _ => rfl, ?_⟩, fun hc => ?_, ?_⟩
      · rw [happroved] at ha
        cases ha
      · rw [hempty]
        exact List.prefix_rfl
      · rw [isOpen, status] at hc
        cases hc
      · exact {
          consistent := ⟨h.consistent.terms, rfl, fun hash ha => (by
              change row.approvedPlanHash = _ at ha
              rw [happroved] at ha
              cases ha), fun hs => (by rcases hs with hs | hs | hs <;> cases hs),
            fun hs => (by rcases hs with hs | hs <;> cases hs), fun hs => by cases hs⟩
          planned := fun p hp => ⟨planHash, rfl, by
            cases hp
            exact created.kept hkept⟩
          unplanned := fun hs => by
            rcases hs with hs | hs | ⟨hs, -⟩ <;> cases hs
          waiting := fun _ => ⟨rfl, happroved⟩
          approved := fun ha => by
            change row.approvedPlanHash.isSome = true at ha
            rw [happroved] at ha
            cases ha
          executed := h.executed
          phase := h.phase
          cancelled := fun hs => by cases hs
          paid := fun hne => absurd rfl hne
          results := fun x hx => by cases hx }
  | @progress recorded plan phase status plan_eq next storable delivered =>
    have hworker := (h.phase phase).1
    have hopen : row.status = .running := by
      rcases status with hs | hs
      · exact hs
      · -- A task that is complete has no next step.
        have hcounts := h.consistent.completed hs
        obtain ⟨_, -, hcreated⟩ := h.planned plan plan_eq
        obtain ⟨steps, hsteps⟩ := hcreated.steps
        rw [stepsOf_eq hsteps] at next
        simp only [CountsSteps, plan_eq, Option.bind_some, hsteps] at hcounts
        omega
    refine follows_kept h hplan hresults (List.prefix_append _ _) (fun x hx => ?_)
      (fun _ => hworker) (fun _ => rfl) (Or.inr ⟨Or.inl hopen, hworker⟩) (fun hs => ?_)
    · rcases List.mem_append.1 hx with hx | hx
      · exact h.results x hx
      · exact List.mem_singleton.1 hx ▸ storable
    · rw [hopen] at hs
      cases hs
  | @complete plan phase status plan_eq all =>
    have hworker := (h.phase phase).1
    refine follows_kept h hplan hresults List.prefix_rfl h.results h.paid (fun hc => ?_)
      (Or.inr ⟨Or.inr rfl, hworker⟩) (fun _ p hp => ?_)
    · rcases status with hs | hs
      · rw [isOpen, hs] at hc
        cases hc
      · exact hs.symm
    · rw [plan_eq] at hp
      cases hp
      exact all
  | @blocked error status =>
    -- A plan without an approval would be at a status that cannot be blocked.
    refine follows_kept h hplan hresults List.prefix_rfl h.results h.paid (fun hc => ?_)
      (Or.inl ⟨rfl, fun ha => ?_⟩) (fun hs => by cases hs)
    · rw [isOpen] at hc
      rcases status with hs | hs | hs <;> rw [hs] at hc <;> cases hc
    · rcases status with hs | hs | hs
      · exact h.unplanned (Or.inr (Or.inl hs))
      · have hsome := h.consistent.authorized (Or.inr (Or.inl hs))
        rw [ha] at hsome
        cases hsome
      · exact h.unplanned (Or.inr (Or.inr ⟨hs, ha⟩))

/-- The result that a worker reports was delivered. -/
theorem extends_report {report : Report} (hreport : Reports H deployment orders row report)
    (hresults : List.Forall₂ Kept results' report.results) : row.Extends H deployment orders
      (row.next (row.report now report.status plan' report.planHash results' report.error)) := by
  intro index x hle hget
  change results'[index]? = some x at hget
  obtain ⟨hi, rfl⟩ := List.getElem?_eq_some_iff.1 hget
  have hlength := hresults.length_eq
  cases hreport with
  | @progress recorded plan phase status plan_eq next storable delivered =>
    rw [List.length_append, List.length_singleton] at hlength
    obtain rfl : index = row.stepResults.length := by omega
    have hkept := hresults.get hi (by simp)
    refine delivered.becomes (.refl row) (canonicalJson_same hkept.distinct storable.distinct ?_)
    simpa using hkept.same
  | plan status created => dsimp only at hlength; omega
  | complete phase status plan_eq all => dsimp only at hlength; omega
  | blocked status => dsimp only at hlength; omega

end TaskRow

end GeneralTasks

end Obolos
