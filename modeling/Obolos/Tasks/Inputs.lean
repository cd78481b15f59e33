import Obolos.Tasks.Templates
import Obolos.Js.Bytes

/-!
# The inputs of an accepted plan

An accepted plan and outputs that match the schemas of their services give inputs that match the
schemas of theirs (`task_plans`).  Such an input is not nested too deeply, and its arrays and keys
are not too long; but it may have too many bytes, because the limit for an output is twice that for
an input, and an input can have several references in it (`resolved_limits`).
-/

namespace Obolos

namespace Tasks

open Json

variable {H : Host} {value x y schema : Json} {levels n : ℕ} {limit : ℕ}

/-! ### Limits -/

theorem assertJson_ok : assertJson H x limit = .ok () ↔
    visit 13 x = .ok () ∧ canonicalSize H.numerals x ≤ limit := by
  simp only [assertJson, JsError.raise, bind_eq_ok, JsError.throwIf_end, not_lt]
  constructor
  · rintro ⟨_, hvisit, hsize⟩
    exact ⟨hvisit, hsize⟩
  · rintro ⟨hvisit, hsize⟩
    exact ⟨_, hvisit, hsize⟩

theorem canonicalJsonHash_ok : (∃ hash, x.canonicalJsonHash H = .ok hash) ↔
    assertJson H x (128 * 1024) = .ok () := by
  simp only [canonicalJsonHash, bind_eq_ok, pure_eq_ok]
  constructor
  · rintro ⟨_, _, h, -⟩
    exact h
  · intro h
    exact ⟨_, _, h, rfl⟩

theorem forM_ok {α : Type} {f : α → Except JsError Unit} {l : List α} :
    l.forM f = .ok () ↔ ∀ a ∈ l, f a = .ok () := by
  induction l with
  | nil => simp [List.forM_nil]
  | cons a l ih =>
    show (f a >>= fun _ => l.forM f) = .ok () ↔ _
    rw [List.forall_mem_cons, ← ih, bind_eq_ok]
    constructor
    · rintro ⟨_, ha, hl⟩
      exact ⟨ha, hl⟩
    · rintro ⟨ha, hl⟩
      exact ⟨_, ha, hl⟩

theorem visit_arr {items : List Json} : visit (n + 1) (.arr items) = .ok () ↔
    items.length ≤ 1000 ∧ ∀ x ∈ items, visit n x = .ok () := by
  simp only [visit, JsError.raise, JsError.throwIf_eq_ok, not_lt, forM_ok]

theorem visit_obj {record : List (JsString × Json)} : visit (n + 1) (.obj record) = .ok () ↔
    record.length ≤ 1000 ∧ ∀ entry ∈ record, (entry.1 ≠ [] ∧ entry.1.length ≤ 256) ∧
      visit n entry.2 = .ok () := by
  simp only [visit, JsError.raise, JsError.throwIf_eq_ok, not_lt, forM_ok, not_or]

/-- More levels accept more. -/
theorem visit_mono (h : visit n x = .ok ()) {m : ℕ} (hm : n ≤ m) : visit m x = .ok () := by
  induction n generalizing m x with
  | zero => cases h
  | succ n ih =>
    obtain ⟨m, rfl⟩ : ∃ k, m = k + 1 := ⟨m - 1, by omega⟩
    cases x with
    | arr items =>
      rw [visit_arr] at h ⊢
      exact ⟨h.1, fun x hx => ih (h.2 x hx) (by omega)⟩
    | obj record =>
      rw [visit_obj] at h ⊢
      exact ⟨h.1, fun entry hentry => ⟨(h.2 entry hentry).1, ih (h.2 entry hentry).2 (by omega)⟩⟩
    | _ => exact h

/-- The parts of a value that passes the limits pass them. -/
theorem assertJson_part (h : Part x y) (hy : assertJson H y limit = .ok ()) :
    assertJson H x limit = .ok () := by
  induction h with
  | refl => exact hy
  | item hmem _ ih =>
    rw [assertJson_ok] at hy
    refine ih (assertJson_ok.2 ⟨?_, (canonicalSize_item hmem).trans hy.2⟩)
    exact visit_mono ((visit_arr.1 hy.1).2 _ hmem) (by omega)
  | field hmem _ ih =>
    rw [assertJson_ok] at hy
    refine ih (assertJson_ok.2 ⟨?_, (canonicalSize_field hmem).trans hy.2⟩)
    exact visit_mono ((visit_obj.1 hy.1).2 _ hmem).2 (by omega)

/-- A value that matches a schema is not nested more deeply than the schema. -/
theorem visit_of_matches {m : ℕ} (h : visit m x = .ok ()) (hx : x.matchesSchema schema = true)
    (hschema : isSchemaAt H levels schema = true) : visit levels x = .ok () := by
  induction levels generalizing m x schema with
  | zero => cases hschema
  | succ levels ih =>
    obtain ⟨m, rfl⟩ : ∃ k, m = k + 1 := by
      cases m with
      | zero => cases h
      | succ k => exact ⟨k, rfl⟩
    cases x with
    | arr items =>
      simp only [matchesSchema, Bool.and_eq_true] at hx
      obtain ⟨⟨htype, -⟩, hitems⟩ := hx
      obtain ⟨below, child, -, hlevels, hchild, hbelow, -, -⟩ := isSchemaAt_array hschema htype
      obtain rfl : levels = below := by omega
      rw [hchild] at hitems
      rw [visit_arr] at h ⊢
      exact ⟨h.1, fun x hx => ih (h.2 x hx) (matchesItems_iff.1 hitems x hx) hbelow⟩
    | obj record =>
      simp only [matchesSchema, Bool.and_eq_true] at hx
      obtain ⟨⟨htype, -⟩, hfields⟩ := hx
      obtain ⟨below, children, hlevels, hchildren, hall⟩ := isSchemaAt_object hschema htype
      obtain rfl : levels = below := by omega
      rw [hchildren] at hfields
      rw [visit_obj] at h ⊢
      refine ⟨h.1, fun entry hentry => ⟨(h.2 entry hentry).1, ?_⟩⟩
      obtain ⟨child, hchild, hmatch⟩ := matchesFields_iff.1 hfields entry hentry
      exact ih (h.2 entry hentry).2 hmatch (hall _ (mem_of_get hchild)).2
    | _ => exact h

/-! ### Steps of a plan -/

/-- What was checked of a step, when these services come before it. -/
structure Checked (H : Host) (earlier : List ServiceDefinition) (step : TaskStep) : Prop where
  inputSchema : isSchema H step.definition.inputSchema = true
  outputSchema : isSchema H step.definition.outputSchema = true
  template : validateTemplate H earlier step.input step.definition.inputSchema = .ok ()

theorem readFields_schemas {fields : List (JsString × Json)} {terms : ServiceTerms}
    (h : ServiceTerms.readFields H fields = .ok terms) :
    isSchema H terms.inputSchema = true ∧ isSchema H terms.outputSchema = true := by
  have hschema : ∀ {key : String} {x : Json},
      Json.field (fun x => if x.isSchema H then some x else none) key fields = .ok x →
        isSchema H x = true := by
    intro key x hx
    obtain ⟨y, -, hy⟩ := Option.bind_eq_some_iff.1 (Json.field_ok.1 hx)
    split_ifs at hy with hvalid
    · obtain rfl := Option.some.inj hy
      exact hvalid
  simp only [ServiceTerms.readFields, bind_eq_ok, pure_eq_ok] at h
  obtain ⟨-, -, -, -, -, -, -, -, -, -, -, -, -, -, -, -, -, -, i, hi, o, ho, rfl⟩ := h
  exact ⟨hschema hi, hschema ho⟩

theorem validate_schemas {definition : ServiceDefinition}
    (h : ServiceDefinition.validate H x = .ok definition) :
    isSchema H definition.inputSchema = true ∧ isSchema H definition.outputSchema = true := by
  simp only [ServiceDefinition.validate, ServiceDefinition.parse, bind_eq_ok, pure_eq_ok] at h
  obtain ⟨_, ⟨_, -, terms, hterms, -, -, -, -, rfl⟩, -, -, rfl⟩ := h
  exact readFields_schemas hterms

/-- Every step was checked against the services before it, and has the input of a raw step. -/
theorem planSteps_checked {services : List Json} {budget total t : ℕ} {raw : List RawStep}
    {definitions : List ServiceDefinition} {steps : List TaskStep}
    (h : planSteps H services budget raw definitions total = .ok (steps, t)) :
    ∀ k step, steps[k]? = some step →
      Checked H (definitions ++ (steps.take k).map TaskStep.definition) step ∧
        ∃ r ∈ raw, r.input = step.input := by
  induction raw generalizing definitions total steps t with
  | nil =>
    simp only [planSteps, Except.ok.injEq, Prod.mk.injEq] at h
    obtain ⟨rfl, -⟩ := h
    intro k step hstep
    cases hstep
  | cons r raw ih =>
    simp only [planSteps, bind_eq_ok] at h
    obtain ⟨found, -, h⟩ := h
    cases found with
    | none => cases h
    | some registered =>
      simp only [bind_eq_ok, JsError.raise, JsError.throwIf_eq_ok, pure_eq_ok] at h
      obtain ⟨definition, hdefinition, _, htemplate, hbudget, ⟨rest, t'⟩, hrest, heq⟩ := h
      obtain ⟨rfl, rfl⟩ := Prod.mk.inj heq
      intro k step hstep
      cases k with
      | zero =>
        obtain rfl := Option.some.inj hstep
        obtain ⟨hinput, houtput⟩ := validate_schemas hdefinition
        exact ⟨⟨hinput, houtput, by simpa using htemplate⟩, r, by simp, rfl⟩
      | succ k =>
        obtain ⟨hchecked, r', hr', hinput⟩ := ih hrest k step hstep
        refine ⟨?_, r', by simp [hr'], hinput⟩
        rw [List.append_assoc] at hchecked
        exact hchecked

theorem of_strictFields {keys : List String} {fields : List (JsString × Json)}
    (h : strictFields keys x = .ok fields) : x = .obj fields := by
  unfold strictFields at h
  split at h
  · split_ifs at h
    rw [Except.ok.inj h]
  · cases h

theorem mem_mapM {α β : Type} {f : α → Except JsError β} {l : List α} {l' : List β} {b : β}
    (h : l.mapM f = .ok l') (hb : b ∈ l') : ∃ a ∈ l, f a = .ok b := by
  induction l generalizing l' with
  | nil =>
    rw [List.mapM_nil, pure_eq_ok] at h
    subst h
    cases hb
  | cons a l ih =>
    simp only [List.mapM_cons, bind_eq_ok, pure_eq_ok] at h
    obtain ⟨b', hb', l', hl', rfl⟩ := h
    rcases List.mem_cons.1 hb with rfl | hb
    · exact ⟨a, by simp, hb'⟩
    · obtain ⟨a', ha', h'⟩ := ih hl' hb
      exact ⟨a', by simp [ha'], h'⟩

/-- The inputs of a raw plan are parts of it. -/
theorem readPlan_part {summary : JsString} {raw : List RawStep}
    (h : readPlan x = .ok (summary, raw)) : ∀ r ∈ raw, Part r.input x := by
  simp only [readPlan, bind_eq_ok] at h
  obtain ⟨fields, hfields, _, -, steps, hsteps, h⟩ := h
  rw [JsError.throwIf_eq_ok] at h
  simp only [bind_eq_ok, pure_eq_ok] at h
  obtain ⟨-, raws, hraws, heq⟩ := h
  obtain ⟨-, rfl⟩ := Prod.mk.inj heq
  obtain ⟨y, hy, harr⟩ := Option.bind_eq_some_iff.1 (field_ok.1 hsteps)
  intro r hr
  obtain ⟨item, hitem, hread⟩ := mem_mapM hraws hr
  simp only [readStep, bind_eq_ok, pure_eq_ok] at hread
  obtain ⟨entries, hentries, _, -, input, hinput, rfl⟩ := hread
  obtain ⟨z, hz, hsome⟩ := Option.bind_eq_some_iff.1 (field_ok.1 hinput)
  obtain rfl := Option.some.inj hsome
  rw [of_strictFields hfields]
  cases y with
  | arr items =>
    obtain rfl := Option.some.inj harr
    refine .field (mem_of_get hy) (.item hitem ?_)
    rw [of_strictFields hentries]
    exact .field (mem_of_get hz) .refl
  | _ => cases harr

/-- The steps of an accepted plan: they were checked, and their inputs pass the limits. -/
theorem createTaskPlan_checked {services : List Json} {budget : JsString} {plan : TaskPlan}
    (h : createTaskPlan H value services budget = .ok plan) {k : ℕ} {step : TaskStep}
    (hstep : plan.steps[k]? = some step) :
    Checked H ((plan.steps.take k).map TaskStep.definition) step ∧
      assertJson H step.input (128 * 1024) = .ok () := by
  simp only [createTaskPlan, bind_eq_ok, pure_eq_ok] at h
  obtain ⟨_, -, ⟨summary, raw⟩, hraw, hash, hhash, ⟨steps, total⟩, hsteps, rfl⟩ := h
  obtain ⟨hchecked, r, hr, hinput⟩ := planSteps_checked hsteps k step hstep
  refine ⟨by simpa using hchecked, ?_⟩
  rw [← hinput]
  exact assertJson_part (readPlan_part hraw r hr) (canonicalJsonHash_ok.1 ⟨hash, hhash⟩)

/-! ### Outputs -/

/-- The outputs match the schemas of the services. -/
def Outputs (steps : List TaskStep) (outputs : List Json) : Prop :=
  outputs.length = steps.length ∧ ∀ (i : ℕ) (output : Json) (step : TaskStep), outputs[i]? = some output →
    steps[i]? = some step → output.matchesSchema step.definition.outputSchema = true

/-- What a reference leads to, in outputs that match. -/
theorem Outputs.follow {steps : List TaskStep} {outputs : List Json} (h : Outputs steps outputs)
    (hsteps : ∀ step ∈ steps, isSchema H step.definition.outputSchema = true) {i : ℕ}
    {path : List Key} {definition : ServiceDefinition} {found : Json}
    (hdefinition : (steps.map TaskStep.definition)[i]? = some definition)
    (hfound : schemaAtPath definition.outputSchema path = .ok found) :
    ∃ output ∈ outputs, ∃ x, lookUp outputs i path = .ok x ∧ x.matchesSchema found = true ∧
      Part x output := by
  rw [List.getElem?_map] at hdefinition
  obtain ⟨step, hstep, rfl⟩ := Option.map_eq_some_iff.1 hdefinition
  have hi : i < outputs.length := by
    rw [h.1]
    exact (List.getElem?_eq_some_iff.1 hstep).1
  have houtput : outputs[i]? = some outputs[i] := List.getElem?_eq_getElem hi
  obtain ⟨-, x, hx, hmatch, hpart⟩ := schemaAtPath_sound hfound
    (hsteps step (List.mem_of_getElem? hstep)) (h.2 i _ step houtput hstep)
  refine ⟨outputs[i], List.getElem_mem hi, x, ?_, hmatch, hpart⟩
  rw [lookUp, houtput]
  exact hx

theorem Outputs.supplies {steps : List TaskStep} {outputs : List Json} (h : Outputs steps outputs)
    (hsteps : ∀ step ∈ steps, isSchema H step.definition.outputSchema = true) :
    Supplies (lookUp outputs) (steps.map TaskStep.definition) := by
  intro i path definition found hdefinition hfound
  obtain ⟨-, -, x, hx, hmatch, -⟩ := h.follow hsteps hdefinition hfound
  exact ⟨x, hx, hmatch⟩

/-- What `resolveTaskInput` accepts of a reference is what the path leads to. -/
theorem lookUp_of_resolveOutput {outputs : List Json} (i : ℕ) (path : List Key)
    (h : resolveOutput H outputs i path = .ok x) :
    lookUp outputs i path = .ok x ∧ assertJson H x (128 * 1024) = .ok () := by
  simp only [resolveOutput, bind_eq_ok, pure_eq_ok] at h
  obtain ⟨y, hy, hash, hhash, rfl⟩ := h
  exact ⟨hy, canonicalJsonHash_ok.1 ⟨hash, hhash⟩⟩

/-- Outputs that pass the limits can be resolved. -/
theorem Outputs.supplies_limited {steps : List TaskStep} {outputs : List Json}
    (h : Outputs steps outputs)
    (hsteps : ∀ step ∈ steps, isSchema H step.definition.outputSchema = true)
    (hlimits : ∀ output ∈ outputs, assertJson H output (128 * 1024) = .ok ()) :
    Supplies (resolveOutput H outputs) (steps.map TaskStep.definition) := by
  intro i path definition found hdefinition hfound
  obtain ⟨output, houtput, x, hx, hmatch, hpart⟩ := h.follow hsteps hdefinition hfound
  obtain ⟨hash, hhash⟩ := canonicalJsonHash_ok.2 (assertJson_part hpart (hlimits output houtput))
  refine ⟨x, ?_, hmatch⟩
  rw [resolveOutput, hx]
  simp only [bind_eq_ok, pure_eq_ok]
  exact ⟨x, rfl, hash, hhash, rfl⟩

/-- The services before a step of an accepted plan have schemas. -/
theorem createTaskPlan_schemas {services : List Json} {budget : JsString} {plan : TaskPlan}
    (h : createTaskPlan H value services budget = .ok plan) :
    ∀ step ∈ plan.steps, isSchema H step.definition.outputSchema = true := by
  intro step hstep
  obtain ⟨k, hk⟩ := List.getElem?_of_mem hstep
  exact (createTaskPlan_checked h hk).1.outputSchema

/-- The input of a step for outputs that pass the limits. -/
theorem resolved_input {services : List Json} {budget : JsString} {plan : TaskPlan} {k : ℕ}
    {step : TaskStep} {outputs : List Json}
    (h : createTaskPlan H value services budget = .ok plan) (hstep : plan.steps[k]? = some step)
    (houtputs : Outputs (plan.steps.take k) outputs)
    (hlimits : ∀ output ∈ outputs, assertJson H output (128 * 1024) = .ok ()) :
    ∃ input, mapInput (resolveOutput H outputs) step.input = .ok input ∧
      resolveTaskInput H step.input outputs = .ok input ∧
      mapInput (lookUp outputs) step.input = .ok input ∧
      input.matchesSchema step.definition.inputSchema = true := by
  obtain ⟨hchecked, hlimit⟩ := createTaskPlan_checked h hstep
  have hsteps : ∀ step ∈ plan.steps.take k, isSchema H step.definition.outputSchema = true :=
    fun step hmem => createTaskPlan_schemas h step (List.mem_of_mem_take hmem)
  obtain ⟨input, hinput, hmatch⟩ := validateTemplate_sound
    (houtputs.supplies_limited hsteps hlimits) hchecked.inputSchema hchecked.template
  obtain ⟨hash, hhash⟩ := canonicalJsonHash_ok.2 hlimit
  refine ⟨input, hinput, ?_, ?_, hmatch⟩
  · simp only [resolveTaskInput, bind_eq_ok]
    exact ⟨hash, hhash, hinput⟩
  · exact mapInput_mono (fun i path x hx => (lookUp_of_resolveOutput i path hx).1) hinput

/-- **Task plans are sound.**  For outputs that match the schemas of their services, every step of
an accepted plan has an input that matches the schema of its service; `resolveTaskInput` computes it
when the outputs pass the limits with which they are accepted. -/
theorem task_plans :
    (∀ (value : Json) services budget plan (k : ℕ) step outputs,
      createTaskPlan H value services budget = .ok plan → plan.steps[k]? = some step →
      Outputs (plan.steps.take k) outputs →
      ∃ input, mapInput (lookUp outputs) step.input = .ok input ∧
        input.matchesSchema step.definition.inputSchema = true ∧
        ((∀ output ∈ outputs, assertJson H output (128 * 1024) = .ok ()) →
          mapInput (resolveOutput H outputs) step.input = .ok input ∧
            resolveTaskInput H step.input outputs = .ok input)) ∧
      (∀ source target value : Json, isSchema H source = true → isSchema H target = true →
        compatibleSchema source target = true → value.matchesSchema source = true →
          value.matchesSchema target = true) ∧
      ∀ (schema : Json) path (found value : Json), isSchema H schema = true →
        schemaAtPath schema path = .ok found →
        value.matchesSchema schema = true →
          ∃ x, follow value path = .ok x ∧ x.matchesSchema found = true := by
  refine ⟨?_, ?_, ?_⟩
  · intro value services budget plan k step outputs h hstep houtputs
    have hchecked := (createTaskPlan_checked h hstep).1
    have hsteps : ∀ step ∈ plan.steps.take k, isSchema H step.definition.outputSchema = true :=
      fun step hmem => createTaskPlan_schemas h step (List.mem_of_mem_take hmem)
    obtain ⟨input, hinput, hmatch⟩ := validateTemplate_sound (houtputs.supplies hsteps)
      hchecked.inputSchema hchecked.template
    refine ⟨input, hinput, hmatch, fun hlimits => ?_⟩
    obtain ⟨input', hmap, hresolve, hlookUp, -⟩ := resolved_input h hstep houtputs hlimits
    obtain rfl := Except.ok.inj (hinput.symm.trans hlookUp)
    exact ⟨hmap, hresolve⟩
  · intro source target value _ htarget hcompatible hvalue
    exact compatibleAt_sound hcompatible htarget hvalue
  · intro schema path found value hschema hpath hvalue
    obtain ⟨-, x, hx, hmatch, -⟩ := schemaAtPath_sound hpath hschema hvalue
    exact ⟨x, hx, hmatch⟩

/-! ### The size of an input -/

mutual

/-- The number of bytes of a template's canonical text with the outputs put in. -/
def resolvedSize (N : Numerals) (outputs : List Json) : Json → ℕ
  | .arr items => 1 + max 1 (resolvedItems N outputs items)
  | .obj record =>
    if (get (js "$from") record).isSome then
      match readReference record with
      | some (step, path) =>
        match lookUp outputs step path with
        | .ok x => canonicalSize N x
        | .error _ => 0
      | none => 0
    else 1 + max 1 (resolvedFields N outputs record)
  | .null => canonicalSize N .null
  | .bool b => canonicalSize N (.bool b)
  | .num q => canonicalSize N (.num q)
  | .infinite => canonicalSize N .infinite
  | .str s => canonicalSize N (.str s)

/-- The bytes of the items, each with a comma. -/
def resolvedItems (N : Numerals) (outputs : List Json) : List Json → ℕ
  | [] => 0
  | x :: items => resolvedSize N outputs x + 1 + resolvedItems N outputs items

/-- The bytes of the properties, each with its key, a colon and a comma. -/
def resolvedFields (N : Numerals) (outputs : List Json) : List (JsString × Json) → ℕ
  | [] => 0
  | (key, x) :: record =>
    key.quote.utf8Length + resolvedSize N outputs x + 2 + resolvedFields N outputs record

end

variable {N : Numerals} {outputs : List Json} {template : Json} {resolve : Resolve}

/-- The size of the resolved input can be read off the template and the outputs. -/
theorem resolvedSize_eq (h : mapInput (lookUp outputs) template = .ok x) :
    canonicalSize N x = resolvedSize N outputs template := by
  induction template using Json.ind generalizing x with
  | arr items ih =>
    have hitems : ∀ l ys, (∀ x ∈ l, x ∈ items) → mapItems (lookUp outputs) l = .ok ys →
        (ys.map fun y => canonicalSize N y + 1).sum = resolvedItems N outputs l := by
      intro l
      induction l with
      | nil =>
        intro ys _ h
        cases h
        rfl
      | cons z l ihl =>
        intro ys hl h
        simp only [mapItems, bind_eq_ok, pure_eq_ok] at h
        obtain ⟨y, hy, ys, hys, rfl⟩ := h
        rw [List.map_cons, List.sum_cons, ih z (hl z (by simp)) hy,
          ihl ys (fun x hx => hl x (by simp [hx])) hys, resolvedItems]
    simp only [mapInput, map_eq_ok] at h
    obtain ⟨ys, hys, rfl⟩ := h
    rw [canonicalSize_arr, hitems items ys (fun _ => id) hys, resolvedSize]
  | obj record ih =>
    have hfields : ∀ l ys, (∀ x ∈ l, x ∈ record) → mapFields (lookUp outputs) l = .ok ys →
        (ys.map (fieldSize (canonicalSize N))).sum = resolvedFields N outputs l := by
      intro l
      induction l with
      | nil =>
        intro ys _ h
        cases h
        rfl
      | cons entry l ihl =>
        obtain ⟨key, z⟩ := entry
        intro ys hl h
        simp only [mapFields, bind_eq_ok, pure_eq_ok] at h
        obtain ⟨y, hy, ys, hys, rfl⟩ := h
        rw [List.map_cons, List.sum_cons, ihl ys (fun x hx => hl x (by simp [hx])) hys,
          resolvedFields, fieldSize, ih (key, z) (hl (key, z) (by simp)) hy]
    rw [mapInput] at h
    split_ifs at h with hforbidden hfrom
    · cases h
    · split at h
      · rename_i step path hreference
        -- The value that is put in for a reference has the size of what it refers to.
        rw [resolvedSize, if_pos hfrom, hreference]
        simp only [h]
      · cases h
    · simp only [map_eq_ok] at h
      obtain ⟨ys, hys, rfl⟩ := h
      rw [canonicalSize_obj, hfields record ys (fun _ => id) hys, resolvedSize, if_neg hfrom]
  | _ => cases h; rfl

/-- A template that passes the limits and references that do give an input that does, up to its
depth. -/
theorem visit_mapInput (hr : ∀ i path x, resolve i path = .ok x → visit 13 x = .ok ())
    (ht : visit n template = .ok ()) (h : mapInput resolve template = .ok x) :
    visit (n + 13) x = .ok () := by
  induction n generalizing template x with
  | zero => cases ht
  | succ n ih =>
    cases template with
    | arr items =>
      rw [visit_arr] at ht
      -- The items are resolved one by one: an induction on a part of the list.
      have hitems : ∀ l ys, (∀ x ∈ l, x ∈ items) → mapItems resolve l = .ok ys →
          ys.length = l.length ∧ ∀ y ∈ ys, visit (n + 13) y = .ok () := by
        intro l
        induction l with
        | nil =>
          intro ys _ h
          cases h
          exact ⟨rfl, fun y hy => by cases hy⟩
        | cons z l ihl =>
          intro ys hl h
          simp only [mapItems, bind_eq_ok, pure_eq_ok] at h
          obtain ⟨y, hy, ys, hys, rfl⟩ := h
          obtain ⟨hlength, hall⟩ := ihl ys (fun x hx => hl x (by simp [hx])) hys
          have hy' := ih (ht.2 z (hl z (by simp))) hy
          exact ⟨by simp [hlength], List.forall_mem_cons.2 ⟨hy', hall⟩⟩
      simp only [mapInput, map_eq_ok] at h
      obtain ⟨ys, hys, rfl⟩ := h
      obtain ⟨hlength, hall⟩ := hitems items ys (fun _ => id) hys
      rw [show n + 1 + 13 = n + 13 + 1 by omega, visit_arr]
      exact ⟨by omega, hall⟩
    | obj record =>
      rw [visit_obj] at ht
      have hfields : ∀ l ys, (∀ x ∈ l, x ∈ record) → mapFields resolve l = .ok ys →
          ys.length = l.length ∧ ∀ entry ∈ ys, (entry.1 ≠ [] ∧ entry.1.length ≤ 256) ∧
            visit (n + 13) entry.2 = .ok () := by
        intro l
        induction l with
        | nil =>
          intro ys _ h
          cases h
          exact ⟨rfl, fun y hy => by cases hy⟩
        | cons entry l ihl =>
          obtain ⟨key, z⟩ := entry
          intro ys hl h
          simp only [mapFields, bind_eq_ok, pure_eq_ok] at h
          obtain ⟨y, hy, ys, hys, rfl⟩ := h
          obtain ⟨hlength, hall⟩ := ihl ys (fun x hx => hl x (by simp [hx])) hys
          obtain ⟨hkey, hz⟩ := ht.2 (key, z) (hl (key, z) (by simp))
          exact ⟨by simp [hlength], List.forall_mem_cons.2 ⟨⟨hkey, ih hz hy⟩, hall⟩⟩
      -- A record with `$from` is replaced by the value it refers to.
      rw [mapInput] at h
      split_ifs at h with hforbidden hfrom
      · cases h
      · split at h
        · exact visit_mono (hr _ _ _ h) (by omega)
        · cases h
      · simp only [map_eq_ok] at h
        obtain ⟨ys, hys, rfl⟩ := h
        obtain ⟨hlength, hall⟩ := hfields record ys (fun _ => id) hys
        rw [show n + 1 + 13 = n + 13 + 1 by omega, visit_obj]
        exact ⟨by omega, hall⟩
    | infinite => cases ht
    | _ => cases h; rfl

/-- The outputs are accepted by the runner. -/
def Accepted (H : Host) (steps : List TaskStep) (outputs : List Json) : Prop :=
  outputs.length = steps.length ∧ ∀ (i : ℕ) (output : Json) (step : TaskStep),
    outputs[i]? = some output → steps[i]? = some step →
      output.validateSchemaValue H step.definition.outputSchema (128 * 1024) = .ok ()

theorem Accepted.matching {steps : List TaskStep} (h : Accepted H steps outputs) :
    Outputs steps outputs :=
  ⟨h.1, fun i output step houtput hstep =>
    (validateSchemaValue_ok.1 (h.2 i output step houtput hstep)).2.2⟩

theorem Accepted.limits {steps : List TaskStep} (h : Accepted H steps outputs) :
    ∀ output ∈ outputs, assertJson H output (128 * 1024) = .ok () := by
  intro output houtput
  obtain ⟨i, hi⟩ := List.getElem?_of_mem houtput
  have hlt : i < steps.length := by
    rw [← h.1]
    exact (List.getElem?_eq_some_iff.1 hi).1
  exact (validateSchemaValue_ok.1 (h.2 i output _ hi (List.getElem?_eq_getElem hlt))).1

/-- **The limits of an input.**  For outputs that were accepted, every step of an accepted plan has
an input that matches the schema of its service and passes all limits but the one on its bytes; it
passes that limit exactly if the template with the outputs put in has at most 64 KiB. -/
theorem resolved_limits {services : List Json} {budget : JsString} {plan : TaskPlan} {k : ℕ}
    {step : TaskStep} (h : createTaskPlan H value services budget = .ok plan)
    (hstep : plan.steps[k]? = some step) (houtputs : Accepted H (plan.steps.take k) outputs) :
    ∃ input, resolveTaskInput H step.input outputs = .ok input ∧
      input.matchesSchema step.definition.inputSchema = true ∧ visit 13 input = .ok () ∧
      (assertJson H input (64 * 1024) = .ok () ↔
        resolvedSize H.numerals outputs step.input ≤ 64 * 1024) ∧
      (input.validateSchemaValue H step.definition.inputSchema (64 * 1024) = .ok () ↔
        resolvedSize H.numerals outputs step.input ≤ 64 * 1024) := by
  obtain ⟨hchecked, hlimit⟩ := createTaskPlan_checked h hstep
  obtain ⟨input, hmap, hresolve, hlookUp, hmatch⟩ :=
    resolved_input h hstep houtputs.matching houtputs.limits
  have hvisit : visit 13 input = .ok () := by
    have hdeep : visit (13 + 13) input = .ok () := visit_mapInput
      (fun i path x hx => (assertJson_ok.1 (lookUp_of_resolveOutput i path hx).2).1)
      (assertJson_ok.1 hlimit).1 hmap
    exact visit_mono (visit_of_matches hdeep hmatch hchecked.inputSchema) (by decide)
  have hsize : assertJson H input (64 * 1024) = .ok () ↔
      resolvedSize H.numerals outputs step.input ≤ 64 * 1024 := by
    rw [assertJson_ok, resolvedSize_eq hlookUp, and_iff_right hvisit]
  refine ⟨input, hresolve, hmatch, hvisit, hsize, ?_⟩
  rw [validateSchemaValue_ok, hsize, and_iff_left ⟨hchecked.inputSchema, hmatch⟩]

/-! ### A long output -/

namespace Sample

/-- A service that turns texts into texts. -/
def terms : ServiceTerms where
  settlementAddress := 1
  ledgerAddress := 2
  seller := 3
  endpoint := js "https://provider.example/text"
  category := .inference
  unit := js "inference-request"
  quantity := 1
  unitPriceAtomic := 1
  inputSchema := .obj [(js "type", .str (js "string"))]
  outputSchema := .obj [(js "type", .str (js "string"))]

/-- The service with its hash. -/
def service : ServiceDefinition :=
  { terms with serviceHash := Host.plain.wordsHash (terms.words Host.plain) }

/-- The second step gets the output of the first one. -/
def raw : Json :=
  .obj [(js "summary", .str (js "Twice.")), (js "steps", .arr [
    .obj [(js "serviceHash", .str service.serviceHash.text), (js "input", .str (js "Hello"))],
    .obj [(js "serviceHash", .str service.serviceHash.text),
      (js "input", .obj [(js "$from", .num 0), (js "path", .arr [])])]])]

/-- The plan. -/
@[irreducible] def created : Except JsError TaskPlan :=
  createTaskPlan Host.plain raw [service.json] (js "2")

/-- What the plan says: the output of its first step is a text of any length, and the input of its
second step is this output. -/
def shape (plan : TaskPlan) : Option (Bool × Bool) × Option (ℕ × List Key) :=
  (plan.steps[0]?.map fun step => (step.definition.outputSchema.hasType "string",
    (step.definition.outputSchema.prop "maxLength").isNone),
  plan.steps[1]?.bind fun step => step.input.asObj.bind readReference)

theorem created_shape : ∃ plan, createTaskPlan Host.plain raw [service.json] (js "2") = .ok plan ∧
    shape plan = (some (true, true), some (0, [])) := by
  have hshape : (created.toOption.map shape) = some (some (true, true), some (0, [])) := by
    decide +kernel
  obtain ⟨plan, hplan, hplan'⟩ := Option.map_eq_some_iff.1 hshape
  refine ⟨plan, ?_, hplan'⟩
  unfold created at hplan
  cases hcreated : createTaskPlan Host.plain raw [service.json] (js "2") with
  | error e => rw [hcreated] at hplan; cases hplan
  | ok plan' =>
    rw [hcreated] at hplan
    rw [Option.some.inj hplan]

/-- The second step of the plan, and the schema of its reference. -/
theorem created_steps : ∃ plan first second record,
    createTaskPlan Host.plain raw [service.json] (js "2") = .ok plan ∧
      plan.steps[0]? = some first ∧ plan.steps[1]? = some second ∧
      second.input = .obj record ∧ readReference record = some (0, []) ∧
      ∀ s, (Json.str s).matchesSchema first.definition.outputSchema = true := by
  obtain ⟨plan, hplan, hshape⟩ := created_shape
  obtain ⟨hfirst, hsecond⟩ := Prod.mk.inj hshape
  obtain ⟨first, hfirst, hschema⟩ := Option.map_eq_some_iff.1 hfirst
  obtain ⟨second, hsecond, hinput⟩ := Option.bind_eq_some_iff.1 hsecond
  obtain ⟨record, hrecord, hreference⟩ := Option.bind_eq_some_iff.1 hinput
  obtain ⟨htype, hlength⟩ := Prod.mk.inj hschema
  refine ⟨plan, first, second, record, hplan, hfirst, hsecond, ?_, hreference, fun s => ?_⟩
  · cases hvalue : second.input with
    | obj record' =>
      rw [hvalue] at hrecord
      rw [Option.some.inj hrecord]
    | _ => rw [hvalue] at hrecord; cases hrecord
  · rw [Option.isNone_iff_eq_none] at hlength
    simp only [matchesSchema, htype, hlength, absentOr, Bool.and_self]

/-- An output of so many letters. -/
def letters (n : ℕ) : Json := .str (List.replicate n 97)

theorem assertJson_letters (n limit : ℕ) :
    assertJson Host.plain (letters n) limit = .ok () ↔ n + 2 ≤ limit := by
  rw [assertJson_ok, letters, canonicalSize_replicate, and_iff_right]
  rfl

end Sample

/-- A record with a readable reference has `$from`. -/
theorem hasFrom {record : List (JsString × Json)} {i : ℕ} {path : List Key}
    (h : readReference record = some (i, path)) : (get (js "$from") record).isSome = true := by
  unfold readReference at h
  cases hget : get (js "$from") record with
  | some x => rfl
  | none =>
    rw [hget] at h
    split_ifs at h
    cases h

namespace Sample

/-- Any text matches the schema of the first step. -/
theorem outputs_letters (n : ℕ) : ∃ plan step record,
    createTaskPlan Host.plain raw [service.json] (js "2") = .ok plan ∧
      plan.steps[1]? = some step ∧ step.input = .obj record ∧
      readReference record = some (0, []) ∧ Outputs (plan.steps.take 1) [letters n] ∧
      (n + 2 ≤ 128 * 1024 → Accepted Host.plain (plan.steps.take 1) [letters n]) := by
  obtain ⟨plan, first, second, record, hplan, hfirst, hsecond, hinput, href, hmatches⟩ :=
    created_steps
  have hlength : [letters n].length = (plan.steps.take 1).length := by
    have hlt : 0 < plan.steps.length := (List.getElem?_eq_some_iff.1 hfirst).1
    rw [List.length_take, List.length_singleton]
    omega
  have honly : ∀ (i : ℕ) (output : Json) (step : TaskStep), [letters n][i]? = some output →
      (plan.steps.take 1)[i]? = some step → output = letters n ∧ step = first := by
    intro i output step houtput hstep
    have hi : i < 1 := (List.getElem?_eq_some_iff.1 houtput).1
    obtain rfl : i = 0 := by omega
    rw [List.getElem?_take_of_lt (by decide), hfirst] at hstep
    exact ⟨(Option.some.inj houtput).symm, (Option.some.inj hstep).symm⟩
  refine ⟨plan, second, record, hplan, hsecond, hinput, href, ⟨hlength, ?_⟩, fun hn => ⟨hlength, ?_⟩⟩
  · intro i output step houtput hstep
    obtain ⟨rfl, rfl⟩ := honly i output step houtput hstep
    exact hmatches _
  · intro i output step houtput hstep
    obtain ⟨rfl, rfl⟩ := honly i output step houtput hstep
    exact validateSchemaValue_ok.2 ⟨(assertJson_letters n _).2 hn,
      createTaskPlan_schemas hplan step (List.mem_of_getElem? hfirst), hmatches _⟩

end Sample

open Sample in
/-- The plan and a short output. -/
theorem task_plans_sample : ∃ plan step input,
    createTaskPlan Host.plain raw [service.json] (js "2") = .ok plan ∧
      plan.steps[1]? = some step ∧
      resolveTaskInput Host.plain step.input [letters 3] = .ok input ∧
      input.matchesSchema step.definition.inputSchema = true := by
  obtain ⟨plan, step, -, hplan, hstep, -, -, houtputs, -⟩ := outputs_letters 3
  obtain ⟨input, -, hmatch, hlimited⟩ :=
    task_plans.1 raw [service.json] (js "2") plan 1 step [letters 3] hplan hstep houtputs
  have hresolve := (hlimited fun output houtput => by
    obtain rfl := List.mem_singleton.1 houtput
    exact (assertJson_letters 3 _).2 (by decide)).2
  exact ⟨plan, step, input, hplan, hstep, hresolve, hmatch⟩

open Sample in
/-- **An output that matches its schema and cannot be referenced**: it is longer than what
`resolveTaskInput` hashes. -/
theorem long_output_not_resolved : ∃ plan step,
    createTaskPlan Host.plain raw [service.json] (js "2") = .ok plan ∧
      plan.steps[1]? = some step ∧ Outputs (plan.steps.take 1) [letters (128 * 1024)] ∧
      ∀ input, mapInput (resolveOutput Host.plain [letters (128 * 1024)]) step.input ≠
        .ok input := by
  obtain ⟨plan, step, record, hplan, hstep, hinput, href, houtputs, -⟩ :=
    outputs_letters (128 * 1024)
  refine ⟨plan, step, hplan, hstep, houtputs, fun input h => ?_⟩
  rw [hinput] at h
  obtain ⟨i, path, href', hresolve, -⟩ := mapInput_reference (hasFrom href) h
  obtain ⟨rfl, rfl⟩ := Prod.mk.inj (Option.some.inj (href.symm.trans href'))
  obtain ⟨hlookUp, hlimit⟩ := lookUp_of_resolveOutput 0 [] hresolve
  have hletters : letters (128 * 1024) = input := Except.ok.inj hlookUp
  rw [← hletters, assertJson_letters] at hlimit
  omega

open Sample in
/-- The plan and a short output: its input passes the limits. -/
theorem resolved_limits_sample : ∃ plan step input,
    createTaskPlan Host.plain raw [service.json] (js "2") = .ok plan ∧
      plan.steps[1]? = some step ∧
      resolveTaskInput Host.plain step.input [letters 3] = .ok input ∧
      input.validateSchemaValue Host.plain step.definition.inputSchema (64 * 1024) = .ok () := by
  obtain ⟨plan, step, record, hplan, hstep, hinput, href, -, haccepted⟩ := outputs_letters 3
  obtain ⟨input, hresolve, -, -, -, hvalid⟩ := resolved_limits hplan hstep (haccepted (by decide))
  refine ⟨plan, step, input, hplan, hstep, hresolve, hvalid.2 ?_⟩
  rw [hinput, resolvedSize, if_pos (hasFrom href), href]
  show canonicalSize _ (letters 3) ≤ _
  rw [letters, canonicalSize_replicate]
  decide

open Sample in
/-- **An input that is too long**: the output it consists of was accepted and paid for. -/
theorem accepted_output_too_long : ∃ plan step input,
    createTaskPlan Host.plain raw [service.json] (js "2") = .ok plan ∧
      plan.steps[1]? = some step ∧
      Accepted Host.plain (plan.steps.take 1) [letters 70000] ∧
      resolveTaskInput Host.plain step.input [letters 70000] = .ok input ∧
      assertJson Host.plain input (64 * 1024) ≠ .ok () := by
  obtain ⟨plan, step, record, hplan, hstep, hinput, href, -, haccepted⟩ := outputs_letters 70000
  have houtputs := haccepted (by decide)
  obtain ⟨input, hresolve, -, -, hsize, -⟩ := resolved_limits hplan hstep houtputs
  refine ⟨plan, step, input, hplan, hstep, houtputs, hresolve, fun h => ?_⟩
  have hle := hsize.1 h
  rw [hinput, resolvedSize, if_pos (hasFrom href), href] at hle
  replace hle : canonicalSize _ (letters 70000) ≤ 64 * 1024 := hle
  rw [letters, canonicalSize_replicate] at hle
  omega

end Tasks

end Obolos
