import Obolos.Economy.CanonicalJson

/-!
# The order of keys is not noticed

A value that was stored in a `jsonb` column and read back is the same value with its keys in
another order.  Neither its checks nor its hash see the difference
(`canonicalJsonHash_same`, `validateSchemaValue_same`), so what was checked before it was stored
need not be checked again.
-/

namespace Obolos

namespace Json

variable {H : Host} {x y schema schema' : Json} {limit : ℕ}

theorem Same.refl (h : Distinct x) : Same x x := (same_iff_sortKeys h h).2 rfl

theorem Same.symm (hx : Distinct x) (hy : Distinct y) (h : Same x y) : Same y x :=
  (same_iff_sortKeys hy hx).2 ((same_iff_sortKeys hx hy).1 h).symm

/-! ### Bounded values -/

theorem forM_ok {α : Type} {f : α → Except JsError Unit} {l : List α} :
    l.forM f = .ok () ↔ ∀ a ∈ l, f a = .ok () := by
  constructor
  · exact of_forM_ok
  · intro h
    induction l with
    | nil => rfl
    | cons a l ih =>
      show (f a >>= fun _ => l.forM f) = .ok ()
      rw [h a List.mem_cons_self]
      exact ih fun b hb => h b (List.mem_cons_of_mem _ hb)

theorem visit_arr {levels : ℕ} {items : List Json} :
    visit (levels + 1) (.arr items) = .ok () ↔
      items.length ≤ 1000 ∧ ∀ x ∈ items, visit levels x = .ok () := by
  simp only [visit, JsError.raise, JsError.throwIf_eq_ok, gt_iff_lt, not_lt, forM_ok]

theorem visit_obj {levels : ℕ} {entries : List (JsString × Json)} :
    visit (levels + 1) (.obj entries) = .ok () ↔
      entries.length ≤ 1000 ∧ ∀ entry ∈ entries,
        ¬ (entry.1 = [] ∨ entry.1.length > 256) ∧ visit levels entry.2 = .ok () := by
  simp only [visit, JsError.raise, JsError.throwIf_eq_ok, gt_iff_lt, not_lt, forM_ok]

/-- Sorting the keys keeps a value within its bounds. -/
theorem visit_sortKeys {levels : ℕ} : visit levels (sortKeys x) = .ok () ↔ visit levels x = .ok () := by
  induction levels generalizing x with
  | zero => rw [visit, visit]
  | succ levels ih =>
    cases x with
    | arr items =>
      simp only [sortKeys, sortItems_eq_map, visit_arr, List.length_map, List.forall_mem_map, ih]
    | obj entries =>
      have hperm := List.perm_insertionSort keyLe (sortFields entries)
      simp only [sortKeys, visit_obj, hperm.length_eq, hperm.mem_iff]
      simp only [sortFields_eq_map, List.length_map, List.forall_mem_map, ih]
    | _ => rfl

theorem assertJson_same (hx : Distinct x) (hy : Distinct y) (h : Same x y)
    (hok : assertJson H x limit = .ok ()) : assertJson H y limit = .ok () := by
  have hsort : sortKeys x = sortKeys y := (same_iff_sortKeys hx hy).1 h
  simp only [assertJson, JsError.raise, bind_eq_ok, JsError.throwIf_end] at hok ⊢
  obtain ⟨_, hvisit, hlength⟩ := hok
  rw [← visit_sortKeys, hsort, visit_sortKeys] at hvisit
  rw [canonicalJson, hsort] at hlength
  exact ⟨_, hvisit, hlength⟩

/-- A value that has a hash has finite numbers. -/
theorem finite_of_canonicalJsonHash {a : Bytes32} (h : canonicalJsonHash H x = .ok a) :
    x.finite = true :=
  finite_of_assertJson (canonicalJsonHash_ok.1 h).1

/-- The same value has the same hash. -/
theorem canonicalJsonHash_same {a : Bytes32} (hx : Distinct x) (hy : Distinct y) (h : Same x y)
    (hok : canonicalJsonHash H x = .ok a) : canonicalJsonHash H y = .ok a := by
  obtain ⟨hassert, rfl⟩ := canonicalJsonHash_ok.1 hok
  refine canonicalJsonHash_ok.2 ⟨assertJson_same hx hy h hassert, ?_⟩
  rw [canonicalJson, canonicalJson, (same_iff_sortKeys hx hy).1 h]

/-! ### Schemas -/

theorem all_eq_of_mem {α : Type} {l : List α} {p q : α → Bool} (h : ∀ a ∈ l, p a = q a) :
    l.all p = l.all q := by
  rw [Bool.eq_iff_iff, List.all_eq_true, List.all_eq_true]
  exact forall₂_congr fun a ha => by rw [h a ha]

theorem matchesItems_eq_all (items : List Json) (schema : Json) :
    matchesItems items schema = items.all fun x => matchesSchema x schema := by
  induction items with
  | nil => rfl
  | cons x items ih => rw [matchesItems, ih, List.all_cons]

theorem matchesFields_eq_all (record properties : List (JsString × Json)) :
    matchesFields record properties = record.all fun field =>
      match get field.1 properties with
      | some child => matchesSchema field.2 child
      | none => false := by
  induction record with
  | nil => rfl
  | cons field record ih =>
    obtain ⟨key, x⟩ := field
    rw [List.all_cons, ← ih]
    rfl

/-- The own keys of an object are different. -/
theorem Distinct.nodup {fields : List (JsString × Json)} (h : Distinct (.obj fields)) :
    (fields.map Prod.fst).Nodup := by
  cases h with
  | obj nodup _ => exact nodup

theorem Distinct.field {fields : List (JsString × Json)} {field : JsString × Json}
    (h : Distinct (.obj fields)) (hfield : field ∈ fields) : Distinct field.2 := by
  cases h with
  | obj _ fields_distinct => exact fields_distinct _ hfield

/-- A property after the keys were sorted. -/
theorem get_sorted {fields : List (JsString × Json)} (h : (fields.map Prod.fst).Nodup)
    (key : JsString) :
    get key ((sortFields fields).insertionSort keyLe) = (get key fields).map sortKeys := by
  have hnodup : ((sortFields fields).map Prod.fst).Nodup := by rwa [map_fst_sortFields]
  rw [← get_perm hnodup (List.perm_insertionSort keyLe _).symm, get_sortFields]

theorem prop_sortKeys (h : Distinct x) (key : String) :
    (sortKeys x).prop key = (x.prop key).map sortKeys := by
  cases x with
  | obj fields => exact get_sorted h.nodup (js key)
  | _ => rfl

theorem prop_distinct {key : String} (h : Distinct x) (hprop : x.prop key = some y) :
    Distinct y := by
  cases x with
  | obj fields => exact h.field (mem_of_get hprop)
  | _ => cases hprop

theorem absentOr_sortKeys {p : Json → Bool} (hp : ∀ x, p (sortKeys x) = p x) (o : Option Json) :
    absentOr p (o.map sortKeys) = absentOr p o := by
  cases o with
  | none => rfl
  | some x => exact hp x

theorem hasType_sortKeys (h : Distinct schema) (name : String) :
    (sortKeys schema).hasType name = schema.hasType name := by
  rw [hasType, hasType, prop_sortKeys h]
  cases schema.prop "type" with
  | none => rfl
  | some t => cases t <;> rfl

/-- The order of the keys of a value does not matter to a schema. -/
theorem matchesSchema_sortKeys (x : Json) : ∀ schema, Distinct x →
    matchesSchema (sortKeys x) schema = matchesSchema x schema := by
  induction x using ind with
  | arr items ih =>
    intro schema h
    cases h with
    | arr h =>
      have hitems : ∀ child, ((items.map sortKeys).all fun x => matchesSchema x child) =
          items.all fun x => matchesSchema x child := by
        intro child
        rw [List.all_map]
        exact all_eq_of_mem fun x hx => ih x hx child (h x hx)
      simp only [sortKeys, sortItems_eq_map, matchesSchema, matchesItems_eq_all, hitems,
        List.length_map]
  | obj fields ih =>
    intro schema h
    have hperm := List.perm_insertionSort keyLe (sortFields fields)
    have hfields : ∀ properties,
        matchesFields ((sortFields fields).insertionSort keyLe) properties =
          matchesFields fields properties := by
      intro properties
      rw [matchesFields_eq_all, matchesFields_eq_all, hperm.all_eq, sortFields_eq_map, List.all_map]
      refine all_eq_of_mem fun field hfield => ?_
      cases hchild : get field.1 properties with
      | none => simp [hchild]
      | some child => simpa [hchild] using ih field hfield child (h.field hfield)
    simp only [sortKeys, matchesSchema, hfields, get_sorted h.nodup, Option.isSome_map]
  | _ => intro schema _; rfl

/-- Nor does the order of the keys of the schema. -/
theorem matchesSchema_sortKeys_schema (x : Json) : ∀ schema, Distinct schema →
    matchesSchema x (sortKeys schema) = matchesSchema x schema := by
  induction x using ind with
  | arr items ih =>
    intro schema h
    simp only [matchesSchema, hasType_sortKeys h, prop_sortKeys h]
    rw [absentOr_sortKeys (by intro n; cases n <;> rfl)]
    congr 1
    cases hchild : schema.prop "items" with
    | none => rfl
    | some child =>
      simp only [Option.map_some, matchesItems_eq_all]
      exact all_eq_of_mem fun x hx => ih x hx child (prop_distinct h hchild)
  | obj fields ih =>
    intro schema h
    simp only [matchesSchema, hasType_sortKeys h, prop_sortKeys h]
    congr 1
    · congr 1
      -- a required name is a text
      cases schema.prop "required" with
      | none => rfl
      | some required =>
        cases required with
        | arr names =>
          simp only [Option.map_some, sortKeys, sortItems_eq_map, List.all_map]
          refine all_eq_of_mem fun name _ => ?_
          cases name <;> rfl
        | _ => rfl
    · cases hproperties : schema.prop "properties" with
      | none => rfl
      | some properties =>
        have hdistinct := prop_distinct h hproperties
        cases properties with
        | obj children =>
          simp only [Option.map_some, sortKeys, matchesFields_eq_all, get_sorted hdistinct.nodup]
          refine all_eq_of_mem fun field hfield => ?_
          cases hchild : get field.1 children with
          | none => rfl
          | some child => exact ih field hfield child (hdistinct.field (mem_of_get hchild))
        | _ => rfl
  | str s =>
    intro schema h
    simp only [matchesSchema, hasType_sortKeys h, prop_sortKeys h]
    rw [absentOr_sortKeys (by intro n; cases n <;> rfl)]
  | num q =>
    intro schema h
    simp only [matchesSchema, hasType_sortKeys h, prop_sortKeys h]
    rw [absentOr_sortKeys (by intro n; cases n <;> rfl),
      absentOr_sortKeys (by intro n; cases n <;> rfl)]
  | _ =>
    intro schema h
    simp only [matchesSchema, hasType_sortKeys h]

theorem text_sortKeys (H : Host) (x : Json) : text H (sortKeys x) = text H x := by
  induction x using ind with
  | arr items ih =>
    have hitems : ∀ first, textItems H first (items.map sortKeys) = textItems H first items := by
      induction items with
      | nil => intro first; rfl
      | cons x items ihitems =>
        intro first
        have hx := ih x List.mem_cons_self
        have hrest := ihitems (fun y hy => ih y (List.mem_cons_of_mem _ hy)) false
        cases x <;> simp only [List.map_cons, sortKeys, textItems, hrest] <;>
          simp only [sortKeys] at hx <;> rw [hx]
    rw [sortKeys, sortItems_eq_map, text, text, hitems]
  | _ => rfl

theorem isRequired_sortKeys {names names' : List JsString} (hnames : ∀ s, s ∈ names ↔ s ∈ names')
    (x : Json) : isRequired names (sortKeys x) = isRequired names' x := by
  have hcontains : ∀ s, names.contains s = names'.contains s := by
    intro s
    rw [Bool.eq_iff_iff, List.contains_iff_mem, List.contains_iff_mem, hnames]
  cases x with
  | arr required =>
    have hasStr : ∀ x : Json, asStr (sortKeys x) = asStr x := by
      intro x; cases x <;> rfl
    simp only [sortKeys, sortItems_eq_map, isRequired, List.all_map, List.filterMap_map]
    congr 1
    · refine all_eq_of_mem fun name _ => ?_
      cases name <;> first | rfl | exact hcontains _
    · rw [show asStr ∘ sortKeys = asStr from funext hasStr]
  | _ => rfl

/-- A schema is one whatever the order of its keys. -/
theorem isSchemaAt_sortKeys {levels : ℕ} (h : Distinct x) :
    isSchemaAt H levels (sortKeys x) = isSchemaAt H levels x := by
  induction levels generalizing x with
  | zero => rw [isSchemaAt, isSchemaAt]
  | succ levels ih =>
    cases x with
    | obj item =>
      have hperm := List.perm_insertionSort keyLe (sortFields item)
      have hknown : ((sortFields item).insertionSort keyLe).all
          (fun entry => schemaKeys.contains entry.1) =
            item.all fun entry => schemaKeys.contains entry.1 := by
        rw [hperm.all_eq, sortFields_eq_map, List.all_map]
        rfl
      have hsort : sortKeys (.obj item) = .obj ((sortFields item).insertionSort keyLe) := rfl
      rw [hsort, isSchemaAt, isSchemaAt, hknown, ← hsort]
      simp only [prop_sortKeys h, hasType_sortKeys h, Option.isNone_map]
      have hbound : ∀ n b, isBound b (sortKeys n) = isBound b n := by
        intro n b; cases n <;> rfl
      have hnumber : ∀ n, isNumber (sortKeys n) = isNumber n := by
        intro n; cases n <;> rfl
      rw [absentOr_sortKeys (fun n => by rw [hbound]), absentOr_sortKeys (fun n => by rw [hnumber]),
        absentOr_sortKeys (fun n => by rw [hnumber])]
      -- known, typed, object, array, length, bounds, ordered
      refine congrArg₂ and (congrArg₂ and (congrArg₂ and (congrArg₂ and (congrArg₂ and
        (congrArg₂ and rfl ?_) ?_) ?_) rfl) rfl) ?_
      · cases prop "type" (.obj item) with
        | none => rfl
        | some t => simp only [Option.map_some, text_sortKeys]
      · split_ifs
        · refine congrArg₂ and ?_ ?_
          · cases prop "additionalProperties" (.obj item) with
            | none => rfl
            | some x => cases x <;> rfl
          · cases hproperties : prop "properties" (.obj item) with
            | none => rfl
            | some properties =>
              have hdistinct := prop_distinct h hproperties
              cases properties with
              | obj children =>
                have hperm := List.perm_insertionSort keyLe (sortFields children)
                have hnames : ∀ s, s ∈ ((sortFields children).insertionSort keyLe).map Prod.fst ↔
                    s ∈ children.map Prod.fst := by
                  intro s
                  rw [(hperm.map Prod.fst).mem_iff, map_fst_sortFields]
                simp only [Option.map_some, sortKeys]
                refine congrArg₂ and (congrArg₂ and ?_ ?_) ?_
                · rw [hperm.length_eq, sortFields_eq_map, List.length_map]
                · rw [hperm.all_eq, sortFields_eq_map, List.all_map]
                  refine all_eq_of_mem fun entry hentry => ?_
                  simp only [Function.comp_apply, ih (hdistinct.field hentry)]
                · cases prop "required" (.obj item) with
                  | none => rfl
                  | some required => exact isRequired_sortKeys hnames required
              | _ => rfl
        · rfl
      · split_ifs
        · refine congrArg₂ and ?_ ?_
          · cases hitems : prop "items" (.obj item) with
            | none => rfl
            | some x => exact ih (prop_distinct h hitems)
          · cases prop "maxItems" (.obj item) with
            | none => rfl
            | some n => exact hbound n 1000
        · rfl
      · cases prop "minimum" (.obj item) with
        | none => rfl
        | some low =>
          cases prop "maximum" (.obj item) with
          | none => cases low <;> rfl
          | some high => cases low <;> cases high <;> rfl
    | _ => rfl

theorem isSchema_same (hx : Distinct x) (hy : Distinct y) (h : Same x y) :
    isSchema H x = isSchema H y := by
  rw [isSchema, ← isSchemaAt_sortKeys hx, (same_iff_sortKeys hx hy).1 h, isSchemaAt_sortKeys hy,
    isSchema]

/-- The same value matches the same schema. -/
theorem matchesSchema_same (hx : Distinct x) (hy : Distinct y) (h : Same x y)
    (hschema : Distinct schema) (hschema' : Distinct schema') (h' : Same schema schema') :
    matchesSchema x schema = matchesSchema y schema' := by
  rw [← matchesSchema_sortKeys x schema hx, (same_iff_sortKeys hx hy).1 h,
    matchesSchema_sortKeys y schema hy, ← matchesSchema_sortKeys_schema y schema hschema,
    (same_iff_sortKeys hschema hschema').1 h', matchesSchema_sortKeys_schema y schema' hschema']

/-- A value that was validated is valid when it comes back. -/
theorem validateSchemaValue_same (hx : Distinct x) (hy : Distinct y) (h : Same x y)
    (hschema : Distinct schema) (hschema' : Distinct schema') (h' : Same schema schema')
    (hok : validateSchemaValue H x schema limit = .ok ()) :
    validateSchemaValue H y schema' limit = .ok () := by
  obtain ⟨hassert, hvalid, hmatches⟩ := validateSchemaValue_ok.1 hok
  refine validateSchemaValue_ok.2 ⟨assertJson_same hx hy h hassert, ?_, ?_⟩
  · rw [← isSchema_same hschema hschema' h']
    exact hvalid
  · rw [← matchesSchema_same hx hy h hschema hschema' h']
    exact hmatches

end Json

end Obolos
