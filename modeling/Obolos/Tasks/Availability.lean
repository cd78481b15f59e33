import Obolos.Tasks.Plan
import Obolos.Js.Same

/-!
# Unavailable services

`createTaskPlan` rejects a plan for many reasons.  One of them is that a step names a service that is
not in the given catalog (`unavailable`).  `createTaskPlan_spares` : a plan whose steps name services
of the catalog is never rejected for that reason.  The proof goes through everything else that
`createTaskPlan` may throw.
-/

namespace Obolos

namespace Tasks

open Json

/-- The exception for a service that is not in the catalog. -/
def unavailable : JsError := .error (js "Plan names an unregistered or unavailable service")

/-- The computation does not throw that exception. -/
def Spares {α : Type} (x : Except JsError α) : Prop := ∀ e, x = .error e → e ≠ unavailable

section Spares

variable {α β : Type} {x : Except JsError α} {f : α → Except JsError β}

theorem spares_ok (a : α) : Spares (.ok a) := by
  intro e h
  cases h

theorem spares_pure (a : α) : Spares (pure a) := spares_ok a

theorem spares_raise {message : String}
    (h : message ≠ "Plan names an unregistered or unavailable service") :
    Spares (JsError.raise message : Except JsError α) := by
  rintro e he rfl
  refine h (js_inj.1 ?_)
  simpa [JsError.raise, unavailable] using he

theorem spares_zod : Spares (.error .zod : Except JsError α) := by
  rintro e h rfl
  cases h

theorem spares_bind (hx : Spares x) (hf : ∀ a, x = .ok a → Spares (f a)) : Spares (x >>= f) := by
  cases x with
  | ok a => exact hf a rfl
  | error e =>
    intro e' h
    exact hx e' (congrArg _ (Except.error.inj h))

theorem spares_map {g : α → β} (hx : Spares x) : Spares (g <$> x) := by
  cases x with
  | ok a => exact spares_ok (g a)
  | error e =>
    intro e' h
    exact hx e' (congrArg _ (Except.error.inj h))

/-- `if(bad) throw …;` before the rest of a function. -/
theorem spares_throwIf {bad : Prop} [Decidable bad] {message : String}
    {y : Except JsError β} (h : message ≠ "Plan names an unregistered or unavailable service")
    (hy : Spares y) : Spares (if bad then JsError.raise message >>= f else y) := by
  split
  · exact spares_bind (spares_raise h) fun _ ha => by cases ha
  · exact hy

theorem spares_ite {p : Prop} [Decidable p] {y : Except JsError α} (hx : Spares x)
    (hy : Spares y) : Spares (if p then x else y) := by
  split
  · exact hx
  · exact hy

theorem spares_forM {l : List α} {g : α → Except JsError Unit} (h : ∀ a ∈ l, Spares (g a)) :
    Spares (l.forM g) := by
  induction l with
  | nil => exact spares_ok ()
  | cons a l ih =>
    refine spares_bind (h a List.mem_cons_self) fun _ _ => ?_
    exact ih fun b hb => h b (List.mem_cons_of_mem _ hb)

end Spares

variable {H : Host}

/-! ### Bounded values -/

theorem spares_visit (n : ℕ) (x : Json) : Spares (visit n x) := by
  induction n generalizing x with
  | zero => exact spares_raise (by decide)
  | succ n ih =>
    unfold visit
    cases x with
    | null => exact spares_ok ()
    | bool b => exact spares_ok ()
    | num q => exact spares_ok ()
    | infinite => exact spares_raise (by decide)
    | str s => exact spares_ok ()
    | arr items =>
      simp only
      exact spares_throwIf (by decide) (spares_forM fun x _ => ih x)
    | obj entries =>
      simp only
      exact spares_throwIf (by decide) (spares_forM fun entry _ =>
        spares_throwIf (by decide) (ih entry.2))

theorem spares_assertJson (x : Json) (limit : ℕ) : Spares (assertJson H x limit) := by
  unfold assertJson
  refine spares_bind (spares_visit 13 x) fun _ _ => ?_
  exact spares_ite (spares_raise (by decide)) (spares_pure ())

theorem spares_canonicalJsonHash (x : Json) : Spares (canonicalJsonHash H x) := by
  unfold canonicalJsonHash
  exact spares_bind (spares_assertJson x _) fun _ _ => spares_pure _

theorem spares_validateSchemaValue (x schema : Json) (limit : ℕ) :
    Spares (validateSchemaValue H x schema limit) := by
  unfold validateSchemaValue
  refine spares_bind (spares_assertJson x limit) fun _ _ => ?_
  simp only
  refine spares_ite (spares_bind spares_zod fun _ h => by cases h) ?_
  exact spares_ite (spares_raise (by decide)) (spares_pure ())

/-! ### Templates -/

theorem spares_mapItems {resolve : Resolve} {items : List Json}
    (h : ∀ x ∈ items, Spares (mapInput resolve x)) : Spares (mapItems resolve items) := by
  induction items with
  | nil => exact spares_ok []
  | cons x items ih =>
    unfold mapItems
    refine spares_bind (h x List.mem_cons_self) fun y _ => ?_
    refine spares_bind (ih fun x hx => h x (List.mem_cons_of_mem _ hx)) fun rest _ => ?_
    exact spares_pure _

theorem spares_mapFields {resolve : Resolve} {record : List (JsString × Json)}
    (h : ∀ entry ∈ record, Spares (mapInput resolve entry.2)) :
    Spares (mapFields resolve record) := by
  induction record with
  | nil => exact spares_ok []
  | cons entry record ih =>
    obtain ⟨key, x⟩ := entry
    unfold mapFields
    refine spares_bind (h (key, x) List.mem_cons_self) fun y _ => ?_
    refine spares_bind (ih fun e he => h e (List.mem_cons_of_mem _ he)) fun rest _ => ?_
    exact spares_pure _

theorem spares_mapInput {resolve : Resolve} (hr : ∀ step path, Spares (resolve step path))
    (x : Json) : Spares (mapInput resolve x) := by
  induction x using Json.ind with
  | null => exact spares_ok _
  | bool b => exact spares_ok _
  | num q => exact spares_ok _
  | infinite => exact spares_ok _
  | str s => exact spares_ok _
  | arr items ih =>
    unfold mapInput
    exact spares_map (spares_mapItems ih)
  | obj record ih =>
    unfold mapInput
    refine spares_ite (spares_raise (by decide)) (spares_ite ?_ (spares_map (spares_mapFields ih)))
    split
    · exact hr _ _
    · exact spares_raise (by decide)

theorem spares_schemaAtPath (schema : Json) (path : List Key) :
    Spares (schemaAtPath schema path) := by
  induction path generalizing schema with
  | nil => exact spares_ok schema
  | cons key path ih =>
    cases key with
    | name key =>
      unfold schemaAtPath
      split
      · exact spares_ite (ih _) (spares_raise (by decide))
      · exact spares_raise (by decide)
    | index n => exact spares_raise (by decide)

theorem spares_checkReference (schema : Json) (earlier : List ServiceDefinition) (step : ℕ)
    (path : List Key) : Spares (checkReference schema earlier step path) := by
  unfold checkReference
  split
  · exact spares_raise (by decide)
  · refine spares_bind (spares_schemaAtPath _ path) fun found _ => ?_
    exact spares_throwIf (by decide) (spares_pure _)

theorem spares_validateItems {earlier : List ServiceDefinition} {items : List Json} {schema : Json}
    (h : ∀ x ∈ items, ∀ schema, Spares (validateTemplate H earlier x schema)) :
    Spares (validateItems H earlier items schema) := by
  induction items with
  | nil =>
    unfold validateItems
    exact spares_ok ()
  | cons x items ih =>
    unfold validateItems
    refine spares_bind (h x List.mem_cons_self schema) fun _ _ => ?_
    exact ih fun x hx => h x (List.mem_cons_of_mem _ hx)

theorem spares_validateFields {earlier : List ServiceDefinition}
    {record properties : List (JsString × Json)}
    (h : ∀ entry ∈ record, ∀ schema, Spares (validateTemplate H earlier entry.2 schema)) :
    Spares (validateFields H earlier record properties) := by
  induction record with
  | nil =>
    unfold validateFields
    exact spares_ok ()
  | cons entry record ih =>
    obtain ⟨key, x⟩ := entry
    unfold validateFields
    split
    · refine spares_ite (spares_raise (by decide)) ?_
      refine spares_bind (h (key, x) List.mem_cons_self _) fun _ _ => ?_
      exact ih fun e he => h e (List.mem_cons_of_mem _ he)
    · exact spares_raise (by decide)

theorem spares_validateTemplate (earlier : List ServiceDefinition) (value schema : Json) :
    Spares (validateTemplate H earlier value schema) := by
  induction value using Json.ind generalizing schema with
  | null => unfold validateTemplate; exact spares_validateSchemaValue _ _ _
  | bool b => unfold validateTemplate; exact spares_validateSchemaValue _ _ _
  | num q => unfold validateTemplate; exact spares_validateSchemaValue _ _ _
  | infinite => unfold validateTemplate; exact spares_validateSchemaValue _ _ _
  | str s => unfold validateTemplate; exact spares_validateSchemaValue _ _ _
  | arr items ih =>
    unfold validateTemplate
    refine spares_ite ?_ (spares_validateSchemaValue _ _ _)
    exact spares_ite (spares_raise (by decide)) (spares_validateItems ih)
  | obj record ih =>
    unfold validateTemplate
    refine spares_ite ?_ (spares_ite ?_ (spares_validateSchemaValue _ _ _))
    · refine spares_bind (spares_mapInput (spares_checkReference schema earlier) _) fun _ _ => ?_
      exact spares_pure ()
    · exact spares_ite (spares_raise (by decide)) (spares_validateFields ih)

/-! ### Plans -/

/-- A hash, as it may be written in a plan, is resolved to a valid definition. -/
def Resolves (H : Host) (services : List Json) (hash : JsString) : Prop :=
  ∃ x definition, findService hash services = .ok (some x) ∧
    ServiceDefinition.validate H x = .ok definition

variable {services : List Json}

theorem spares_planSteps {budget : ℕ} {steps : List RawStep} {definitions : List ServiceDefinition}
    {total : ℕ} (h : ∀ step ∈ steps, Resolves H services step.serviceHash) :
    Spares (planSteps H services budget steps definitions total) := by
  induction steps generalizing definitions total with
  | nil =>
    unfold planSteps
    exact spares_ok _
  | cons step steps ih =>
    obtain ⟨x, definition, hfind, hvalid⟩ := h step List.mem_cons_self
    unfold planSteps
    rw [hfind]
    refine spares_bind (spares_ok _) fun found hfound => ?_
    obtain rfl : some x = found := Except.ok.inj hfound
    simp only
    rw [hvalid]
    refine spares_bind (spares_ok _) fun _ _ => ?_
    refine spares_bind (spares_validateTemplate _ _ _) fun _ _ => ?_
    refine spares_throwIf (by decide) ?_
    refine spares_bind (ih fun step hstep => h step (List.mem_cons_of_mem _ hstep)) fun _ _ => ?_
    exact spares_pure _

/-- **A plan that names services of the catalog is not rejected for their absence.** -/
theorem createTaskPlan_spares {value : Json} {summary : JsString} {raw : List RawStep}
    {budgetAtomic : JsString} (hread : readPlan value = .ok (summary, raw))
    (h : ∀ step ∈ raw, Resolves H services step.serviceHash) :
    Spares (createTaskPlan H value services budgetAtomic) := by
  unfold createTaskPlan
  rw [hread]
  refine spares_bind ?_ fun budget _ => ?_
  · unfold readBudget
    split
    · exact spares_ite (spares_ok _) spares_zod
    · exact spares_zod
  refine spares_bind (spares_ok _) fun plan hplan => ?_
  obtain rfl : (summary, raw) = plan := Except.ok.inj hplan
  refine spares_bind (spares_canonicalJsonHash value) fun _ _ => ?_
  refine spares_bind (spares_planSteps h) fun _ _ => ?_
  exact spares_pure _

/-- A plan whose first service is not in the catalog is rejected for that. -/
theorem createTaskPlan_unavailable {value : Json} {summary : JsString} {step : RawStep}
    {raw : List RawStep} {budgetAtomic : JsString} {budget : ℕ} {hash : Bytes32}
    (hread : readPlan value = .ok (summary, step :: raw))
    (hbudget : readBudget budgetAtomic = .ok budget)
    (hhash : value.canonicalJsonHash H = .ok hash)
    (hfind : findService step.serviceHash services = .ok none) :
    createTaskPlan H value services budgetAtomic = .error unavailable := by
  simp only [createTaskPlan, hread, hbudget, hhash, planSteps, hfind, bind, Except.bind]
  rfl

end Tasks

end Obolos
