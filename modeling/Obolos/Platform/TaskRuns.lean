import Obolos.Platform.TaskSteps

/-!
# Every run of the task handlers

The handlers are verified one by one against what the others may do meanwhile (`Rely`), and every
statement of theirs is a `Step`.  A handler that has read a row knows that it has not changed as long
as its revision is the same (`Seen`), which is why the condition on the revision is enough.
-/

namespace Obolos

namespace GeneralTasks

open Json (canonicalJson Distinct)
open Marketplace (EconomyDeployment OrderRow)
open Prog (post wp_seq wp_catch wp_post_mono wp_await wp_ite wp_pure wp_throw wp_mono)
open Tasks (createTaskPlan readPlan planSteps findService TaskPlan TaskStep RawStep)

/-! ### Accepted plans -/

section Plans

variable {H : Host} {value x y : Json} {services : List Json}

theorem distinct_part (h : Tasks.Part x y) (hy : y.Distinct) : x.Distinct := by
  induction h with
  | refl => exact hy
  | item hmem _ ih =>
    cases hy with
    | arr hitems => exact ih (hitems _ hmem)
  | field hmem _ ih => exact ih (hy.field hmem)

theorem mem_of_findService {hash : JsString} (h : findService hash services = .ok (some x)) :
    x ∈ services := by
  induction services with
  | nil => cases h
  | cons service services ih =>
    unfold findService at h
    split at h
    · split_ifs at h
      · cases h
        exact List.mem_cons_self
      · exact List.mem_cons_of_mem _ (ih h)
    · cases h

/-- The definitions of a plan are those of the catalog. -/
theorem planSteps_distinct {budget total t : ℕ} {raw : List RawStep}
    {definitions : List ServiceDefinition} {steps : List TaskStep}
    (hservices : ∀ x ∈ services, x.Distinct)
    (h : planSteps H services budget raw definitions total = .ok (steps, t)) :
    ∀ step ∈ steps, step.definition.Distinct := by
  induction raw generalizing definitions total steps t with
  | nil =>
    simp only [planSteps, Except.ok.injEq, Prod.mk.injEq] at h
    rw [← h.1]
    intro step hstep
    cases hstep
  | cons r raw ih =>
    simp only [planSteps, bind_eq_ok] at h
    obtain ⟨found, hfound, h⟩ := h
    cases found with
    | none => cases h
    | some registered =>
      simp only [bind_eq_ok, JsError.raise, JsError.throwIf_eq_ok, pure_eq_ok] at h
      obtain ⟨definition, hdefinition, _, -, -, ⟨rest, t'⟩, hrest, heq⟩ := h
      obtain ⟨rfl, rfl⟩ := Prod.mk.inj heq
      have hregistered := hservices registered (mem_of_findService hfound)
      simp only [ServiceDefinition.validate, bind_eq_ok, pure_eq_ok] at hdefinition
      obtain ⟨_, hparse, -, -, rfl⟩ := hdefinition
      intro step hstep
      rcases List.mem_cons.1 hstep with rfl | hstep
      · exact (ServiceDefinition.parse_same hregistered hregistered (.refl hregistered) hparse).1
      · exact ih hrest step hstep

/-- An accepted plan can be stored. -/
theorem distinct_planJson {budget : JsString} {plan : TaskPlan} (hvalue : value.Distinct)
    (hservices : ∀ x ∈ services, x.Distinct)
    (h : createTaskPlan H value services budget = .ok plan) : (planJson plan).Distinct := by
  have hsteps : ∀ step ∈ plan.steps, step.definition.Distinct ∧ step.input.Distinct := by
    simp only [createTaskPlan, bind_eq_ok, pure_eq_ok] at h
    obtain ⟨_, -, ⟨summary, raw⟩, hraw, _, -, ⟨steps, total⟩, hplan, rfl⟩ := h
    intro step hstep
    obtain ⟨k, hk⟩ := List.getElem?_of_mem hstep
    obtain ⟨-, r, hr, hinput⟩ := Tasks.planSteps_checked hplan k step hk
    exact ⟨planSteps_distinct hservices hplan step hstep,
      hinput ▸ distinct_part (Tasks.readPlan_part hraw r hr) hvalue⟩
  refine .obj (by simp [js_inj]) ?_
  simp only [List.forall_mem_cons, List.not_mem_nil, false_imp_iff, implies_true, and_true]
  refine ⟨.num _, .str _, .arr fun x hx => ?_, .str _⟩
  obtain ⟨step, hstep, rfl⟩ := List.mem_map.1 hx
  obtain ⟨hdefinition, hinput⟩ := hsteps step hstep
  refine .obj (by simp [js_inj]) ?_
  simp only [List.forall_mem_cons, List.not_mem_nil, false_imp_iff, implies_true, and_true]
  exact ⟨.str _, ServiceDefinition.distinct_json hdefinition, hinput⟩

theorem distinct_serverCatalog {deployment : EconomyDeployment} {services : List ServiceDefinition}
    (h : ∀ service ∈ services, service.Distinct) :
    ∀ x ∈ Catalog.serverCatalog deployment services, x.Distinct := by
  intro x hx
  obtain ⟨service, hservice, rfl⟩ := List.mem_map.1 hx
  exact ServiceDefinition.distinct_json (h service (List.mem_filter.1 hservice).1)

end Plans

/-! ### Verified deliveries -/

section Deliveries

variable {H : Host} {deployment : Option EconomyDeployment} {row : TaskRow} {index : ℕ}
  {paid : PaidStep} {order : OrderRow} {result : TaskStepResult}

/-- What a verified step says. -/
structure Verified (H : Host) (deployment : Option EconomyDeployment) (orders : OrderTable)
    (row : TaskRow) (index : ℕ) (result : TaskStepResult) : Prop where
  plan : ∃ plan, row.plan = some plan ∧ index < (stepsOf plan).length
  storable : Storable result.json
  delivers : row.stepResults.length = index → HasResult H deployment orders row index result.json

theorem TaskStepResult.distinct_json (h : result.output.Distinct) : result.json.Distinct := by
  refine .obj (by simp [js_inj]) ?_
  simp only [List.forall_mem_cons, List.not_mem_nil, false_imp_iff, implies_true, and_true]
  exact ⟨.num _, .str _, .str _, .str _, h⟩

theorem TaskStepResult.finite_json (h : result.output.finite = true) :
    result.json.finite = true := by
  simp [TaskStepResult.json, Json.finite, Json.finiteFields, h]

/-- `if(bad) throw fail(…);` before the rest of a function. -/
theorem failIf_ok {α β : Type} {bad : Prop} [Decidable bad] {status : ℕ} {code message : String}
    {f : α → Except ApiError β} {x : Except ApiError β} {y : β} :
    (if bad then ApiError.fail status code message >>= f else x) = .ok y ↔ ¬ bad ∧ x = .ok y := by
  by_cases h : bad <;> simp [h, ApiError.fail, bind, Except.bind]

/-- What was checked of the plan. -/
theorem approvedStep_ok (h : approvedStep H deployment row index = .ok paid) :
    ∃ plan, row.plan = some plan ∧ row.planHash = some paid.planHash ∧
      row.approvedPlanHash = some paid.planHash ∧ plan.canonicalJsonHash H = .ok paid.planHash ∧
      (stepsOf plan)[index]? = some paid.step ∧
      paid.orderId = taskStepOrderId H row.id paid.planHash index := by
  unfold approvedStep at h
  split at h
  · rename_i plan planHash hplan hhash
    simp only [bind_eq_ok, failIf_ok, ApiError.lift_ok, not_not] at h
    obtain ⟨happroved, hash, hcanonical, rfl, h⟩ := h
    split at h
    · cases h
    · rename_i step hstep
      simp only [bind_eq_ok, failIf_ok, ApiError.lift_ok, pure_eq_ok] at h
      obtain ⟨definition, -, -, input, -, _, -, rfl⟩ := h
      exact ⟨plan, hplan, hhash, happroved, hcanonical, hstep, rfl⟩
  · cases h

/-- The result of an order can be stored. -/
theorem storable_of_deliveredStep (hdistinct : ∀ x, order.output = some x → x.Distinct)
    (h : deliveredStep H row index paid order = .ok result) : Storable result.json := by
  simp only [deliveredStep, bind_eq_ok, failIf_ok, ApiError.lift_ok, pure_eq_ok] at h
  obtain ⟨request, -, _, -, _, -, _, -, _, -, -, v, -, _, -, outputHash, hcanonical, -, rfl⟩ := h
  have hout : ((order.output.getD .null : Json)).Distinct := by
    cases hx : order.output with
    | none => exact .null
    | some x => exact hdistinct x hx
  exact ⟨TaskStepResult.distinct_json hout,
    TaskStepResult.finite_json (Json.finite_of_canonicalJsonHash hcanonical)⟩

theorem verified_of_deliveredStep {orders : OrderTable}
    (happroved : approvedStep H deployment row index = .ok paid)
    (hstored : orders.get paid.orderId = some order) (huser : order.userId = row.userId)
    (hagent : order.platformAgentId = row.agentId) (hstate : order.state = .fulfilled)
    (hdistinct : ∀ x, order.output = some x → x.Distinct)
    (h : deliveredStep H row index paid order = .ok result) :
    Verified H deployment orders row index result where
  plan := by
    obtain ⟨plan, hplan, -, -, -, hstep, -⟩ := approvedStep_ok happroved
    exact ⟨plan, hplan, (List.getElem?_eq_some_iff.1 hstep).1⟩
  storable := storable_of_deliveredStep hdistinct h
  delivers hcount := ⟨row, paid, order, result, .refl row, hcount, happroved, hstored, huser, hagent,
    hstate, h, rfl⟩

end Deliveries

/-! ### What the handlers are verified against -/

variable {ι : Type} [DecidableEq ι] {H : Host} {J : Jsonb} {deployment : Option EconomyDeployment}

/-- What the handlers rely on, and what they guarantee. -/
def protocol (ι : Type) (H : Host) (deployment : Option EconomyDeployment) :
    Protocol ι (TaskDb ι) where
  inv := Inv H deployment
  rely := Rely H deployment
  guar := Step H deployment

/-- What the handlers of process `i` are verified against. -/
abbrev spec (H : Host) (J : Jsonb) (deployment : Option EconomyDeployment) (i : ι) :
    Prog.Spec (TaskDb ι) Effect Answer ApiError :=
  (protocol ι H deployment).spec (system H J deployment) i

variable {i : ι} {d : TaskDb ι} {α β : Type} {I I' : TaskDb ι → Prop} {row : TaskRow}

/-- Whatever happens keeps the condition. -/
def Stable (H : Host) (deployment : Option EconomyDeployment) (I : TaskDb ι → Prop) : Prop :=
  ∀ d d', Keeps H d d' → (Inv H deployment d → Inv H deployment d') → I d → I d'

omit [DecidableEq ι] in
theorem stable_inv : Stable H deployment (Inv H deployment (ι := ι)) := fun _ _ _ hinv h => hinv h

/-- An effect from a condition that the others keep. -/
theorem wp_perform {o : Effect} {P : Answer o → TaskDb ι → Prop} (hI : I d)
    (hstable : ∀ d d', Rely H deployment i d d' → I d → I d')
    (h : ∀ d r d', I d → sem H J i d o r d' → Step H deployment i d d' ∧ I' d' ∧ ∀ a, r = .ok a → P a d') :
    (perform o).wp (spec H J deployment i) (post I' P) d := by
  refine wp_await.2 fun d₁ hrely r d₂ hsem => ?_
  obtain ⟨hstep, hI', hP⟩ := h d₁ r d₂ (hstable d d₁ hrely hI) hsem
  refine ⟨hstep, ?_⟩
  cases r with
  | ok a => exact ⟨hI', hP a rfl⟩
  | error e => exact hI'

/-- An effect whose step keeps the condition. -/
theorem wp_statement {o : Effect} {P : Answer o → TaskDb ι → Prop} (hI : I d)
    (hstable : Stable H deployment I)
    (h : ∀ d r d', I d → sem H J i d o r d' → Step H deployment i d d' ∧ ∀ a, r = .ok a → P a d') :
    (perform o).wp (spec H J deployment i) (post I P) d :=
  wp_perform hI (fun d d' hrely => hstable d d' hrely.keeps hrely.inv) fun d r d' hd hsem => by
    obtain ⟨hstep, hP⟩ := h d r d' hd hsem
    exact ⟨hstep, hstable d d' hstep.keeps hstep.inv hd, hP⟩

/-- An effect that leaves the database alone. -/
theorem wp_read {o : Effect} {P : Answer o → TaskDb ι → Prop} (hI : I d)
    (hstable : Stable H deployment I)
    (h : ∀ (d : TaskDb ι) r d', I d → sem H J i d o r d' → d' = d ∧ ∀ a, r = .ok a → P a d) :
    (perform o).wp (spec H J deployment i) (post I P) d := by
  refine wp_statement hI hstable fun d r d' hd hsem => ?_
  obtain ⟨rfl, hP⟩ := h d r d' hd hsem
  exact ⟨.refl i _, hP⟩

theorem wp_check {x : Except JsError α} (hI : I d) :
    (check x).wp (spec H J deployment i) (post I fun a _ => x = .ok a) d :=
  Prog.wp_ofExcept_post hI fun _ ha => ApiError.lift_ok.1 ha

theorem wp_failed {e : ApiError} {P : α → TaskDb ι → Prop} (hI : I d) :
    (throw e : Exec α).wp (spec H J deployment i) (post I P) d :=
  wp_throw.2 hI

/-- `if(bad) throw …;` before the rest of a function. -/
theorem wp_failIf {bad : Prop} [Decidable bad] {e : ApiError} {f : β → Exec α} {p : Exec α}
    {P : α → TaskDb ι → Prop} (hI : I d)
    (hp : ¬ bad → p.wp (spec H J deployment i) (post I P) d) :
    (if bad then (throw e : Exec β) >>= f else p).wp (spec H J deployment i) (post I P) d :=
  wp_ite (fun _ => wp_seq (P := fun _ _ => False) (wp_failed hI) (fun _ h => h)
    fun _ _ _ h => h.elim) hp

theorem wp_assertUuid {s : JsString} (hI : I d) :
    (assertUuid s).wp (spec H J deployment i) (post I fun _ _ => True) d :=
  wp_ite (fun _ => wp_pure.2 ⟨hI, trivial⟩) fun _ => wp_failed hI

/-! ### Rows that were read -/

/-- A row that was read or written; it is still there unless its revision has changed. -/
structure Seen (H : Host) (deployment : Option EconomyDeployment) (row : TaskRow) (d : TaskDb ι) :
    Prop where
  inv : Inv H deployment d
  row : ∃ row', d.tasks.get row.id = some row' ∧ row.Becomes H row'

omit [DecidableEq ι] in
theorem Seen.stable : Stable H deployment (Seen H deployment row (ι := ι)) := by
  intro d d' hkeeps hinv hseen
  obtain ⟨row', hrow', hbecomes⟩ := hseen.row
  obtain ⟨row'', hrow'', hbecomes'⟩ := hkeeps.rows _ row' hrow'
  exact ⟨hinv hseen.inv, row'', hrow'', hbecomes.trans hbecomes'⟩

omit [DecidableEq ι] in
theorem seen_of_get {id : JsString} (hinv : Inv H deployment d) (hrow : d.tasks.get id = some row) :
    Seen H deployment row d :=
  ⟨hinv, row, by rw [id_of_get hrow rfl]; exact hrow, .refl row⟩

/-! ### The owner -/

section Owner

variable {userId id agentId : JsString} {task : NewTask} {planHash : Bytes32}

theorem wp_requireOwnedAgent (hinv : Inv H deployment d) :
    (requireOwnedAgent userId agentId).wp (spec H J deployment i)
      (post (Inv H deployment) fun _ _ => True) d := by
  unfold requireOwnedAgent
  refine wp_seq (wp_assertUuid hinv) (fun _ h => h) fun _ d hinv _ => ?_
  refine wp_seq (wp_read (P := fun _ _ => True) hinv stable_inv fun d r d' _ hsem =>
    ⟨hsem.1, fun _ _ => trivial⟩) (fun _ h => h) fun owner d hinv _ => ?_
  exact wp_ite (fun _ => wp_failed hinv) fun _ => wp_pure.2 ⟨hinv, trivial⟩

theorem wp_ownedRow (hinv : Inv H deployment d) :
    (ownedRow userId id).wp (spec H J deployment i)
      (post (Inv H deployment) fun row d => Seen H deployment row d) d := by
  unfold ownedRow
  refine wp_seq (wp_assertUuid hinv) (fun _ h => h) fun _ d hinv _ => ?_
  refine wp_seq (wp_read (P := fun o d => ∀ row, o = some row → Seen H deployment row d) hinv stable_inv
    fun d r d' hinv hsem => ?_) (fun _ h => h) fun row d hinv hseen => ?_
  · obtain ⟨rfl, hr⟩ := hsem.read
    refine ⟨rfl, fun o ho row hrow => ?_⟩
    obtain rfl := hr o ho
    exact seen_of_get hinv (Option.filter_eq_some_iff.1 hrow).1
  · cases row with
    | some row => exact wp_pure.2 ⟨hinv, hseen row rfl⟩
    | none => exact wp_failed hinv

/-- The transaction of a process. -/
def Own (c : Creating ι) (d : TaskDb ι) : Prop :=
  ∀ c' ∈ d.creating, c'.process = c.process → c' = c

omit [DecidableEq ι] in
theorem Own.rely {c : Creating ι} {d' : TaskDb ι} (h : Own c d) (hrely : Rely H deployment c.process d d') :
    Own c d' := fun c' hc' hi => h c' (hrely.creating c' hc' hi) hi

/-- The row that is committed. -/
theorem wp_createTransaction (htask : task.Allowed) (hinv : Inv H deployment d) :
    (createTransaction task).wp (spec H J deployment i) (post (Inv H deployment) fun o d =>
      ∀ row, o = some row → d.tasks.get row.id = some row ∧ ∃ now, row = task.stored now) d := by
  unfold createTransaction
  refine wp_seq (wp_statement (P := fun _ d => Own ⟨i, task.agentId, none⟩ d) hinv stable_inv
    fun d r d' hinv hsem => ⟨step_locks hsem, fun _ hr => ?_⟩) (fun _ h => h) fun _ d hinv hown => ?_
  · subst hr
    cases hsem with
    | done owner free answer =>
      intro c hc hi
      rcases List.mem_append.1 hc with hc | hc
      · exact absurd hi (free c hc).2
      · exact List.mem_singleton.1 hc
  refine wp_seq (P := fun o d => Own ⟨i, task.agentId, o⟩ d ∧
      ∀ row, o = some row → ∃ now, row = task.stored now)
    (wp_statement hinv stable_inv fun d r d' hinv hsem => ⟨step_inserts htask hsem, fun o ho => ?_⟩)
    (fun _ h => h) fun o d hinv ⟨hown, hstored⟩ => ?_
  · subst ho
    cases hsem with
    | refused _ answer => cases answer.ok
    | done locked inserted answer =>
      cases answer.ok
      refine ⟨fun c hc hi => ?_, fun row hrow => ?_⟩
      · rcases List.mem_append.1 hc with hc | hc
        · exact absurd hi (TaskDb.mem_without.1 hc).2
        · exact List.mem_singleton.1 hc
      · rcases insertTask_ok inserted with rfl | ⟨rfl, -⟩
        · cases hrow
        · exact ⟨_, (Option.some.inj hrow).symm⟩
  refine wp_seq (wp_perform (I := fun d => Inv H deployment d ∧ Own ⟨i, task.agentId, o⟩ d)
    (P := fun _ d => ∀ row, o = some row → d.tasks.get row.id = some row) ⟨hinv, hown⟩
    (fun d d' hrely h => ⟨hrely.inv h.1, h.2.rely hrely⟩) fun d r d' hd hsem =>
    ⟨step_commits hd.1 hsem, (step_commits hd.1 hsem).inv hd.1, fun _ hr row hrow => ?_⟩)
    (fun _ h => h) fun _ d hinv hget => wp_pure.2 ⟨hinv, fun row hrow => ⟨hget row hrow, hstored row hrow⟩⟩
  subst hr hrow
  cases hsem with
  | empty locked => cases hd.2 _ locked rfl
  | done locked =>
    cases hd.2 _ locked rfl
    show (d.tasks.insert row).get row.id = some row
    rw [Table.get_insert (hd.1.prepared _ locked row rfl).id, if_pos rfl]

/-- The row is for the new task. -/
def NewTask.Matches (task : NewTask) (row : TaskRow) : Prop :=
  row.userId = task.userId ∧ row.agentId = task.agentId ∧
    row.idempotencyKey = task.idempotencyKey ∧ row.requestHash = task.requestHash

theorem NewTask.matches_stored (task : NewTask) (now : ℕ) : task.Matches (task.stored now) :=
  ⟨rfl, rfl, rfl, rfl⟩

theorem wp_replayTask (hinv : Inv H deployment d) :
    (replayTask task).wp (spec H J deployment i)
      (post (Inv H deployment) fun result d => Seen H deployment result.1 d ∧ task.Matches result.1) d := by
  unfold replayTask
  refine wp_seq (wp_read (P := fun o d => ∀ row, o = some row → Seen H deployment row d ∧
      row.userId = task.userId ∧ row.agentId = task.agentId ∧
        row.idempotencyKey = task.idempotencyKey) hinv stable_inv
    fun d r d' hinv hsem => ?_) (fun _ h => h) fun row d hinv hrow => ?_
  · obtain ⟨rfl, hr⟩ := hsem.read
    refine ⟨rfl, fun o ho row hrow => ?_⟩
    have hfind := (hr o ho).symm.trans hrow
    have hget := Table.get_eq_some.2 ⟨List.mem_of_find?_eq_some hfind, rfl⟩
    have hcond := List.find?_some hfind
    exact ⟨seen_of_get hinv hget, of_decide_eq_true hcond⟩
  · cases row with
    | none => exact wp_failed hinv
    | some row =>
      obtain ⟨hseen, huser, hagent, hkey⟩ := hrow row rfl
      refine wp_failIf hinv fun hhash => wp_pure.2 ⟨hinv, hseen, huser, hagent, hkey, ?_⟩
      exact not_not.1 hhash

/-- What the schema accepts fits into the column. -/
theorem readInput_instruction {value : Json} {input : TaskInput} (h : readInput H value = .ok input) :
    1 ≤ input.instruction.codePoints ∧ input.instruction.codePoints ≤ 12000 := by
  simp only [readInput, bind_eq_ok, pure_eq_ok] at h
  obtain ⟨_, -, _, -, instruction, hinstruction, _, -, rfl⟩ := h
  obtain ⟨s, hs⟩ := Json.textField_ok hinstruction
  unfold readTrimmed at hs
  split_ifs at hs with hlength
  cases hs
  exact ⟨JsString.codePoints_pos hlength.1, (JsString.codePoints_le _).trans hlength.2⟩

theorem readBudget_bounds {s : JsString} {n : ℕ} (h : Tasks.readBudget s = .ok n) :
    0 < n ∧ n < 2 ^ 256 := by
  unfold Tasks.readBudget at h
  split at h
  · rename_i hread
    split_ifs at h with hbound
    cases h
    exact ⟨readPositive_pos hread, hbound.2⟩
  · cases h

/-- **What `createTask` answers**: a row with the key and the hash of the request. -/
theorem wp_createTask {value : Json} {key : Option JsString} (hinv : Inv H deployment d) :
    (createTask H userId value key).wp (spec H J deployment i) (post (Inv H deployment) fun result d =>
      Seen H deployment result.1 d ∧ ∃ input, readInput H value = .ok input ∧
        result.1.userId = userId ∧ result.1.agentId = input.agentId.toLowerCase ∧
        some result.1.idempotencyKey = key ∧
        input.json.canonicalJsonHash H = .ok result.1.requestHash) d := by
  unfold createTask
  refine wp_seq (wp_check hinv) (fun _ h => h) fun input d hinv hinput => ?_
  cases hkey : key.filter isKey with
  | none => exact wp_failed hinv
  | some idempotencyKey =>
    have hkey : key = some idempotencyKey := (Option.filter_eq_some_iff.1 hkey).1
    refine wp_seq (wp_requireOwnedAgent hinv) (fun _ h => h) fun _ d hinv _ => ?_
    refine wp_seq (wp_check hinv) (fun _ h => h) fun requestHash d hinv hhash => ?_
    refine wp_seq (wp_check hinv) (fun _ h => h) fun budgetAtomic d hinv hbudget => ?_
    refine wp_seq (wp_read (P := fun _ _ => True) hinv stable_inv fun d r d' _ hsem =>
      ⟨hsem, fun _ _ => trivial⟩) (fun _ h => h) fun id d hinv _ => ?_
    have hmatches : ∀ (task : NewTask) row, task.Matches row → task.userId = userId →
        task.agentId = input.agentId.toLowerCase → task.idempotencyKey = idempotencyKey →
        task.requestHash = requestHash →
        ∃ input, readInput H value = .ok input ∧ row.userId = userId ∧
          row.agentId = input.agentId.toLowerCase ∧ some row.idempotencyKey = key ∧
          input.json.canonicalJsonHash H = .ok row.requestHash := by
      rintro task row ⟨huser, hagent', hrow, hrequest⟩ rfl hagent rfl rfl
      exact ⟨input, hinput, huser, hagent'.trans hagent, by rw [hrow, hkey], by rw [hrequest, hhash]⟩
    refine wp_seq (wp_createTransaction ⟨readInput_instruction hinput, readBudget_bounds hbudget⟩ hinv)
      (fun _ h => h) fun created d hinv hcreated => ?_
    cases created with
    | some row =>
      obtain ⟨hget, now, hstored⟩ := hcreated row rfl
      subst hstored
      exact wp_pure.2 ⟨hinv, seen_of_get hinv hget,
        hmatches _ _ (NewTask.matches_stored _ now) rfl rfl rfl rfl⟩
    | none =>
      exact wp_post_mono (wp_replayTask hinv) (fun _ h => h)
        fun result d _ h => ⟨h.1, hmatches _ result.1 h.2 rfl rfl rfl rfl⟩

theorem wp_approve (hinv : Inv H deployment d) :
    (approve H userId row planHash).wp (spec H J deployment i)
      (post (Inv H deployment) fun _ _ => True) d := by
  unfold approve
  split
  · refine wp_failIf hinv fun _ => ?_
    refine wp_seq (wp_check hinv) (fun _ h => h) fun hash d hinv _ => wp_failIf hinv fun _ => ?_
    refine wp_ite (fun _ => wp_pure.2 ⟨hinv, trivial⟩) fun _ => ?_
    refine wp_seq (wp_statement (P := fun _ _ => True) hinv stable_inv fun d r d' hinv hsem =>
      ⟨step_approveTask hinv hsem, fun _ _ => trivial⟩) (fun _ h => h) fun row d hinv _ => ?_
    cases row with
    | some row => exact wp_pure.2 ⟨hinv, trivial⟩
    | none => exact wp_failed hinv
  · exact wp_failed hinv

theorem wp_cancel (hinv : Inv H deployment d) :
    (cancel userId row).wp (spec H J deployment i) (post (Inv H deployment) fun _ _ => True) d := by
  unfold cancel
  refine wp_ite (fun _ => wp_pure.2 ⟨hinv, trivial⟩) fun _ => ?_
  refine wp_seq (wp_statement (P := fun _ _ => True) hinv stable_inv fun d r d' hinv hsem =>
    ⟨step_cancelTask hinv hsem, fun _ _ => trivial⟩) (fun _ h => h) fun row d hinv _ => ?_
  cases row with
  | some row => exact wp_pure.2 ⟨hinv, trivial⟩
  | none => exact wp_failed hinv

theorem wp_retry (hinv : Inv H deployment d) :
    (retry userId row).wp (spec H J deployment i) (post (Inv H deployment) fun _ _ => True) d := by
  unfold retry
  refine wp_seq (wp_statement (P := fun _ _ => True) hinv stable_inv fun d r d' hinv hsem =>
    ⟨step_retryTask hinv hsem, fun _ _ => trivial⟩) (fun _ h => h) fun updated d hinv _ => ?_
  cases updated with
  | some row => exact wp_pure.2 ⟨hinv, trivial⟩
  | none => exact wp_ite (fun _ => wp_pure.2 ⟨hinv, trivial⟩) fun _ => wp_failed hinv

theorem wp_updateTask {value : Json} (hinv : Inv H deployment d) :
    (updateTask H userId id value).wp (spec H J deployment i)
      (post (Inv H deployment) fun _ _ => True) d := by
  unfold updateTask
  refine wp_seq (wp_check hinv) (fun _ h => h) fun action d hinv _ => ?_
  refine wp_seq (wp_ownedRow hinv) (fun _ h => h) fun row d hinv _ => ?_
  cases action with
  | approve planHash => exact wp_approve hinv
  | cancel => exact wp_cancel hinv
  | retry => exact wp_retry hinv

end Owner

/-! ### The workers -/

section Workers

variable {agentId taskId : JsString} {index : ℕ} {orderId : Bytes32} {value : Json}

theorem wp_listRunnerTasks {taskId : Option JsString} {identityOnly : Bool} (hinv : Inv H deployment d) :
    (listRunnerTasks agentId taskId identityOnly).wp (spec H J deployment i)
      (post (Inv H deployment) fun _ _ => True) d := by
  unfold listRunnerTasks
  refine wp_seq (wp_assertUuid hinv) (fun _ h => h) fun _ d hinv _ => ?_
  refine wp_seq (wp_read (P := fun _ _ => True) hinv stable_inv fun d r d' _ hsem =>
    ⟨hsem.1, fun _ _ => trivial⟩) (fun _ h => h) fun found d hinv _ => ?_
  cases found with
  | none => exact wp_failed hinv
  | some found =>
    obtain ⟨address, userId⟩ := found
    refine wp_ite (fun _ => wp_pure.2 ⟨hinv, trivial⟩) fun _ => ?_
    cases taskId with
    | none =>
      exact wp_seq (wp_read (P := fun _ _ => True) hinv stable_inv fun d r d' _ hsem =>
        ⟨hsem.read.1, fun _ _ => trivial⟩) (fun _ h => h) fun rows d hinv _ =>
          wp_pure.2 ⟨hinv, trivial⟩
    | some taskId =>
      refine wp_seq (wp_assertUuid hinv) (fun _ h => h) fun _ d hinv _ => ?_
      refine wp_seq (wp_read (P := fun _ _ => True) hinv stable_inv fun d r d' _ hsem =>
        ⟨hsem.read.1, fun _ _ => trivial⟩) (fun _ h => h) fun row d hinv _ => ?_
      cases row with
      | none => exact wp_failed hinv
      | some row => exact wp_pure.2 ⟨hinv, trivial⟩

/-- A token that this process has drawn, and nobody uses. -/
structure Fresh (H : Host) (deployment : Option EconomyDeployment) (i : ι) (token : JsString)
    (d : TaskDb ι) : Prop where
  inv : Inv H deployment d
  drawn : d.drawn token = some i
  unused : ∀ g ∈ d.granted, g.token ≠ token

omit [DecidableEq ι] in
theorem Fresh.rely {token : JsString} {d' : TaskDb ι} (h : Fresh H deployment i token d)
    (hrely : Rely H deployment i d d') : Fresh H deployment i token d' :=
  ⟨hrely.inv h.inv, hrely.keeps.drawn _ _ h.drawn, hrely.fresh _ h.drawn h.unused⟩

omit [DecidableEq ι] in
/-- Nobody uses a token before it is drawn. -/
theorem fresh_draw {token : JsString} (hinv : Inv H deployment d) (h : d.drawn token = none) :
    Fresh H deployment i token { d with drawn := Function.update d.drawn token (some i) } := by
  refine ⟨(step_draw (i := i) h).inv hinv, Function.update_self .., fun g hg htoken => ?_⟩
  have hsome := hinv.history.drawn g hg
  rw [htoken, h] at hsome
  cases hsome

theorem wp_claimTask (hinv : Inv H deployment d) :
    (claimTask agentId value).wp (spec H J deployment i)
      (post (Inv H deployment) fun _ _ => True) d := by
  unfold claimTask
  refine wp_seq (wp_assertUuid hinv) (fun _ h => h) fun _ d hinv _ => ?_
  refine wp_seq (wp_check hinv) (fun _ h => h) fun worker d hinv _ => ?_
  refine wp_seq (wp_statement (P := fun token d => Fresh H deployment i token d) hinv stable_inv
    fun d r d' hinv hsem => ?_) (fun _ h => h) fun token d hinv hfresh => ?_
  · obtain ⟨token, hnone, rfl, rfl⟩ := hsem
    refine ⟨step_draw hnone, fun a ha => ?_⟩
    cases ha
    exact fresh_draw hinv hnone
  · refine wp_perform (P := fun _ _ => True) hfresh (fun d d' hrely h => h.rely hrely)
      fun d r d' h hsem => ?_
    obtain ⟨locked, hsends⟩ := hsem
    have hstep := step_claimTask h.inv h.drawn h.unused hsends
    exact ⟨hstep, hstep.inv h.inv, fun _ _ => trivial⟩

/-! ### Reports -/

theorem wp_verifiedStep (hI : I d) (hstable : Stable H deployment I) :
    (verifiedStep H deployment row index).wp (spec H J deployment i)
      (post I fun result d => Verified H deployment d.orders row index result) d := by
  unfold verifiedStep
  refine wp_catch (I := I) (P := fun result d => Verified H deployment d.orders row index result) ?_
    (fun _ _ h hv => ⟨h, hv⟩) fun e d hI => ?_
  · unfold verifyPaidStep
    refine wp_seq (Prog.wp_ofExcept_post (P := fun paid _ =>
      approvedStep H deployment row index = .ok paid) hI fun _ ha => ha) (fun _ h => h)
      fun paid d hI happroved => ?_
    refine wp_seq (wp_read (P := fun o d => ∀ order : OrderRow, o = some order →
      (∀ x, order.output = some x → x.Distinct) ∧ d.orders.get paid.orderId = some order ∧
        order.userId = row.userId ∧ order.platformAgentId = row.agentId) hI hstable
      fun d r d' _ hsem => ?_) (fun _ h => h) fun order d hI horder => ?_
    · obtain ⟨hsends, hdistinct⟩ := hsem
      obtain ⟨rfl, hr⟩ := hsends.read
      refine ⟨rfl, fun o ho order horder => ⟨hdistinct order (horder ▸ ho), ?_⟩⟩
      obtain rfl := hr o ho
      obtain ⟨hget, hcond⟩ := Option.filter_eq_some_iff.1 horder
      exact ⟨hget, (of_decide_eq_true hcond).2⟩
    cases order with
    | none => exact wp_failed hI
    | some order =>
      obtain ⟨hdistinct, hstored, huser, hagent⟩ := horder order rfl
      refine wp_failIf hI fun hstate => ?_
      exact Prog.wp_ofExcept_post hI fun result hresult => verified_of_deliveredStep happroved hstored
        huser hagent (not_not.1 hstate) hdistinct hresult
  · cases e with
    | platform status code message => exact wp_failed hI
    | database code => exact wp_failed hI
    | thrown e => exact wp_failed hI

/-- The plan of a report was created for the budget of the task. -/
theorem wp_planReport {value : Json} (hvalue : value.Distinct) (hI : I d)
    (hstable : Stable H deployment I) :
    (planReport H deployment row value).wp (spec H J deployment i)
      (post I fun report d => ∀ r, report = some r → TaskRow.Reports H deployment d.orders row r) d := by
  unfold planReport
  refine wp_failIf hI fun hphase => ?_
  refine wp_seq (P := fun plan _ => ∃ catalog, createTaskPlan H value catalog
    (JsString.decimal row.budgetAtomic) = .ok plan ∧ ∀ x ∈ catalog, x.Distinct) ?_ (fun _ h => h)
    fun plan d hI hplan => ?_
  · refine wp_catch (I := I) (P := fun plan _ => ∃ catalog, createTaskPlan H value catalog
      (JsString.decimal row.budgetAtomic) = .ok plan ∧ ∀ x ∈ catalog, x.Distinct) ?_
      (fun _ _ h hp => ⟨h, hp⟩) fun e d hI => wp_failed hI
    refine wp_seq (wp_read (P := fun services _ => ∀ service ∈ services, service.Distinct) hI hstable
      fun d r d' _ hsem => ?_) (fun _ h => h) fun services d hI hservices => ?_
    · exact ⟨hsem.1, fun services hr => hsem.2 services hr⟩
    · refine wp_post_mono (wp_check hI) (fun _ h => h) fun plan d _ hcreated => ⟨_, hcreated, ?_⟩
      cases deployment with
      | none => exact fun x hx => by cases hx
      | some deployment => exact distinct_serverCatalog hservices
  obtain ⟨catalog, hcreated, hcatalog⟩ := hplan
  refine wp_seq (wp_check hI) (fun _ h => h) fun planHash d hI hhash => ?_
  refine wp_ite (fun _ => ?_) fun hstatus => ?_
  · exact wp_ite (fun _ => wp_pure.2 ⟨hI, fun r hr => by cases hr⟩) fun _ => wp_failed hI
  refine wp_seq (wp_read (P := fun _ _ => True) hI hstable fun d r d' _ hsem =>
    ⟨hsem, fun _ _ => trivial⟩) (fun _ h => h) fun now d hI _ => ?_
  refine wp_failIf hI fun _ => wp_pure.2 ⟨hI, fun r hr => ?_⟩
  cases hr
  have hdistinct := distinct_planJson hvalue hcatalog hcreated
  refine .plan ?_ ⟨hdistinct, hhash, value, catalog, plan, hcreated, hdistinct, .refl hdistinct⟩
  tauto

theorem wp_progressReport (hphase : row.claimPhase = some .execute)
    (hstatus : row.status = .running ∨ row.status = .completed) (hI : I d)
    (hstable : Stable H deployment I) :
    (progressReport H deployment row taskId index orderId).wp (spec H J deployment i)
      (post I fun report d => ∀ r, report = some r → TaskRow.Reports H deployment d.orders row r) d := by
  unfold progressReport
  cases hplanHash : row.planHash with
  | none => exact wp_failed hI
  | some planHash =>
    refine wp_failIf hI fun hnext => ?_
    refine wp_seq (wp_verifiedStep hI hstable) (fun _ h => h) fun result d hI hverified => ?_
    cases hrecorded : row.stepResults[index]? with
    | some recorded =>
      exact wp_ite (fun _ => wp_pure.2 ⟨hI, fun r hr => by cases hr⟩) fun _ => wp_failed hI
    | none =>
      refine wp_pure.2 ⟨hI, fun r hr => ?_⟩
      cases hr
      have hlength := List.getElem?_eq_none_iff.1 hrecorded
      obtain rfl : index = row.stepResults.length := by
        rw [not_or, not_lt] at hnext
        omega
      obtain ⟨⟨plan, hplan, hlt⟩, hstorable, hdelivers⟩ := hverified
      rw [← hplanHash]
      exact .progress hphase hstatus hplan hlt hstorable (hdelivers rfl)

theorem wp_verifyResults (hI : I d) (hstable : Stable H deployment I) (results : List Json) :
    (verifyResults H deployment row index results).wp (spec H J deployment i)
      (post I fun _ _ => True) d := by
  induction results generalizing index d with
  | nil => exact wp_pure.2 ⟨hI, trivial⟩
  | cons recorded results ih =>
    unfold verifyResults
    refine wp_seq (wp_verifiedStep hI hstable) (fun _ h => h) fun result d hI _ => ?_
    exact wp_failIf hI fun _ => ih hI

theorem wp_completeReport (hphase : row.claimPhase = some .execute)
    (hstatus : row.status = .running ∨ row.status = .completed) (hI : I d)
    (hstable : Stable H deployment I) :
    (completeReport H deployment row).wp (spec H J deployment i)
      (post I fun r d => TaskRow.Reports H deployment d.orders row r) d := by
  unfold completeReport
  cases hplan : row.plan with
  | none => exact wp_failed hI
  | some plan =>
    refine wp_failIf hI fun hlength => ?_
    refine wp_seq (wp_verifyResults hI hstable _) (fun _ h => h) fun _ d hI _ =>
      wp_pure.2 ⟨hI, ?_⟩
    rw [← hplan]
    exact .complete hphase hstatus hplan (not_not.1 hlength)

/-- **What a worker reports** of the row it has read. -/
theorem wp_runnerReport {action : RunnerAction} (haction : ∀ x, action = .plan x → x.Distinct)
    (hI : I d) (hstable : Stable H deployment I) :
    (runnerReport H deployment row taskId action).wp (spec H J deployment i)
      (post I fun report d => ∀ r, report = some r → TaskRow.Reports H deployment d.orders row r) d := by
  cases action with
  | plan value => exact wp_planReport (haction value rfl) hI hstable
  | blocked error =>
    unfold runnerReport
    refine wp_failIf hI fun hstatus => wp_pure.2 ⟨hI, fun r hr => ?_⟩
    cases hr
    exact .blocked (not_not.1 hstatus)
  | progress index orderId =>
    unfold runnerReport
    refine wp_failIf hI fun hclaim => ?_
    rw [not_or, not_not, not_not] at hclaim
    exact wp_progressReport hclaim.1 hclaim.2 hI hstable
  | complete =>
    unfold runnerReport
    refine wp_failIf hI fun hclaim => ?_
    rw [not_or, not_not, not_not] at hclaim
    refine wp_seq (wp_completeReport hclaim.1 hclaim.2 hI hstable) (fun _ h => h)
      fun report d hI hreport => wp_pure.2 ⟨hI, fun r hr => ?_⟩
    cases hr
    exact hreport

/-- The plan of a report is a part of the request. -/
theorem read_plan_distinct {token : JsString} {action : RunnerAction} (hvalue : value.Distinct)
    (h : RunnerAction.read value = .ok (token, action)) : ∀ x, action = .plan x → x.Distinct := by
  unfold RunnerAction.read at h
  split at h
  · cases h
  split_ifs at h <;> simp only [bind_eq_ok, pure_eq_ok, Prod.mk.injEq] at h
  · obtain ⟨fields, hfields, _, -, -, rfl⟩ := h
    rintro _ ⟨⟩
    cases hget : Json.get (js "plan") fields with
    | none => exact .null
    | some x =>
      rw [Tasks.of_strictFields hfields] at hvalue
      exact hvalue.field (Json.mem_of_get hget)
  · obtain ⟨_, -, _, -, _, -, _, -, -, rfl⟩ := h
    rintro _ ⟨⟩
  · obtain ⟨_, -, _, -, -, rfl⟩ := h
    rintro _ ⟨⟩
  · obtain ⟨_, -, _, -, _, -, -, rfl⟩ := h
    rintro _ ⟨⟩

theorem wp_updateRunnerTask (hvalue : value.Distinct) (hinv : Inv H deployment d) :
    (updateRunnerTask H deployment agentId taskId value).wp (spec H J deployment i)
      (post (Inv H deployment) fun _ _ => True) d := by
  unfold updateRunnerTask
  refine wp_seq (wp_assertUuid hinv) (fun _ h => h) fun _ d hinv _ => ?_
  refine wp_seq (wp_assertUuid hinv) (fun _ h => h) fun _ d hinv _ => ?_
  refine wp_seq (wp_check hinv) (fun _ h => h) fun request d hinv hread => ?_
  obtain ⟨claimToken, action⟩ := request
  refine wp_seq (wp_read (P := fun o d => ∀ row, o = some row → Seen H deployment row d) hinv stable_inv
    fun d r d' hinv hsem => ?_) (fun _ h => h) fun row d hinv hseen => ?_
  · obtain ⟨rfl, hr⟩ := hsem.read
    refine ⟨rfl, fun o ho row hrow => ?_⟩
    obtain rfl := hr o ho
    exact seen_of_get hinv (Option.filter_eq_some_iff.1 hrow).1
  cases row with
  | none => exact wp_failed hinv
  | some row =>
    refine wp_seq (wp_runnerReport (read_plan_distinct hvalue hread) (hseen row rfl) Seen.stable)
      (fun _ h => h.inv) fun report d hseen hreport => ?_
    cases report with
    | none => exact wp_pure.2 ⟨hseen.inv, trivial⟩
    | some report =>
      refine wp_seq (wp_statement (P := fun _ _ => True) (I := fun d => Seen H deployment row d ∧
        TaskRow.Reports H deployment d.orders row report) ⟨hseen, hreport report rfl⟩ ?_
        fun d r d' ⟨hseen, hreport⟩ hsem => ⟨?_, fun _ _ => trivial⟩) (fun _ h => h.1.inv)
        fun updated d ⟨hseen, _⟩ _ => ?_
      · exact fun d d' hkeeps hinv h => ⟨Seen.stable d d' hkeeps hinv h.1, h.2.go hkeeps.orders⟩
      · -- The row with the revision that was read is the row that was read.
        refine step_reportTask hseen.inv (fun row' hrow' hrevision => ?_) hsem
        obtain ⟨row'', hrow'', hbecomes⟩ := hseen.row
        obtain rfl := Option.some.inj (hrow'.symm.trans hrow'')
        rw [hbecomes.same hrevision]
        exact hreport
      · cases updated with
        | some row => exact wp_pure.2 ⟨hseen.inv, trivial⟩
        | none => exact wp_failed hseen.inv

end Workers

/-! ### Soundness -/

theorem wp_handle {request : Request} (hparsed : request.Parsed) (hinv : Inv H deployment d) :
    (handle H deployment request).wp (spec H J deployment i)
      (post (Inv H deployment) fun _ _ => True) d := by
  cases request with
  | create userId value key =>
    exact wp_seq (wp_createTask hinv) (fun _ h => h) fun _ d hinv _ => wp_pure.2 ⟨hinv, trivial⟩
  | update userId id value =>
    exact wp_seq (wp_updateTask hinv) (fun _ h => h) fun _ d hinv _ => wp_pure.2 ⟨hinv, trivial⟩
  | list agentId taskId identityOnly =>
    exact wp_seq (wp_listRunnerTasks hinv) (fun _ h => h) fun _ d hinv _ => wp_pure.2 ⟨hinv, trivial⟩
  | claim agentId value =>
    exact wp_seq (wp_claimTask hinv) (fun _ h => h) fun _ d hinv _ => wp_pure.2 ⟨hinv, trivial⟩
  | report agentId taskId value =>
    exact wp_seq (wp_updateRunnerTask hparsed hinv) (fun _ h => h) fun _ d hinv _ =>
      wp_pure.2 ⟨hinv, trivial⟩

/-- What happens on its own. -/
structure Alone (d d' : TaskDb ι) : Prop where
  tasks : d'.tasks = d.tasks
  orders : OrdersGo d.orders d'.orders
  granted : d'.granted = d.granted
  drawn : d'.drawn = d.drawn
  refused : d'.refused = d.refused
  creating : d'.creating.Sublist d.creating
  now : d.now ≤ d'.now
  owner : ∀ agentId userId, d.owner agentId = some userId → d'.owner agentId = some userId

theorem alone_env {live : ι → Prop} {d' : TaskDb ι} (h : (system H J deployment).env live d d') :
    Alone d d' := by
  rcases h with ⟨now, hle, rfl⟩ | ⟨owner, howner, rfl⟩ | ⟨orders, horders, rfl⟩ | ⟨p, rfl⟩
  · exact ⟨rfl, .refl _, rfl, rfl, rfl, List.Sublist.refl _, hle, fun _ _ h => h⟩
  · exact ⟨rfl, .refl _, rfl, rfl, rfl, List.Sublist.refl _, le_rfl, howner⟩
  · exact ⟨rfl, horders, rfl, rfl, rfl, List.Sublist.refl _, le_rfl, fun _ _ h => h⟩
  · exact ⟨rfl, .refl _, rfl, rfl, rfl, List.filter_sublist, le_rfl, fun _ _ h => h⟩

namespace Alone

variable {d' : TaskDb ι}

omit [DecidableEq ι]

theorem keeps (h : Alone d d') : Keeps H d d' :=
  keeps_same h.now h.orders h.owner (fun _ _ hi => by rw [h.drawn]; exact hi) h.granted h.tasks

theorem inv (h : Alone d d') (hinv : Inv H deployment d) : Inv H deployment d' :=
  inv_same hinv h.tasks h.orders h.granted (fun _ hi => by rw [h.drawn]; exact hi) h.creating
    fun e he => hinv.unrefused e (h.refused ▸ he)

theorem rely (h : Alone d d') : Rely H deployment i d d' :=
  ⟨h.keeps, h.inv, fun _ _ hfresh => by rw [h.granted]; exact hfresh,
    fun _ hc _ => h.creating.subset hc⟩

end Alone

theorem sound : (protocol ι H deployment).Sound (system H J deployment) where
  rely_refl i d _ := .refl i d
  rely_trans _ _ _ _ h h' := h.trans h'
  guar_inv _ _ _ hinv h := h.inv hinv
  guar_rely _ _ _ _ _ h hj := h.rely hj
  env_inv _ _ _ hinv h := (alone_env h).inv hinv
  env_rely _ _ _ _ _ h _ := (alone_env h).rely
  start i d p hinv hp := by
    obtain ⟨request, hparsed, rfl⟩ := hp
    exact wp_mono (wp_handle hparsed hinv) fun _ _ _ => trivial

/-- A database without tasks and orders. -/
def TaskDb.fresh (ι : Type) (owner : JsString → Option JsString) (now : ℕ) : TaskDb ι :=
  ⟨Table.empty, Table.empty, owner, now, [], fun _ => none, [], []⟩

omit [DecidableEq ι] in
theorem inv_fresh (owner : JsString → Option JsString) (now : ℕ) :
    Inv H deployment (TaskDb.fresh ι owner now) where
  rows _ _ hrow := by cases hrow
  delivered _ _ hrow := by cases hrow
  keys := Table.unique_empty
  limit _ := Nat.zero_le _
  locks := List.Pairwise.nil
  prepared _ hc := by cases hc
  ids := List.Pairwise.nil
  history := {
    drawn := fun _ hg => by cases hg
    rows := fun _ hg => by cases hg
    tokens := fun _ hg => by cases hg
    current := fun _ _ _ hrow => by cases hrow
    executed := fun _ _ hrow => by cases hrow
    first := fun l _ _ hsplit => by cases l <;> cases hsplit }
  unrefused _ he := by cases he

end GeneralTasks

end Obolos
