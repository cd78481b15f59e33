import Obolos.Tasks.Plan
import Obolos.Js.Same

/-!
# Templates are sound

What `createTaskPlan` accepts fits when it is executed: an output that matches the schema of its
service has the properties that a reference asks for (`schemaAtPath_sound`), a value that fits a
schema fits every compatible one (`compatibleAt_sound`), and so a template whose references are
resolved to such values matches the input schema of its service (`validateTemplate_sound`).
-/

namespace Obolos

namespace Tasks

open Json

variable {H : Host} {schema source target value : Json} {levels : ℕ}

/-! ### Schemas -/

theorem hasType_iff {name : String} {x : Json} :
    x.hasType name = true ↔ x.prop "type" = some (.str (js name)) := by
  unfold hasType
  constructor
  · intro h
    split at h
    · rename_i t ht
      rw [ht, beq_iff_eq.1 h]
    · cases h
  · intro h
    rw [h]
    exact beq_self_eq_true _

/-- A value has one type. -/
theorem hasType_unique {name name' : String} {x : Json} (h : x.hasType name = true)
    (h' : x.hasType name' = true) : name = name' := by
  rw [hasType_iff] at h h'
  rw [h] at h'
  simpa using h'

theorem hasType_absurd {C : Prop} {name name' : String} {x : Json} (h : x.hasType name = true)
    (h' : x.hasType name' = true) (hne : name ≠ name') : C := absurd (hasType_unique h h') hne

theorem matchesItems_iff {items : List Json} :
    matchesItems items schema = true ↔ ∀ x ∈ items, x.matchesSchema schema = true := by
  induction items with
  | nil => simp [matchesItems]
  | cons x items ih => simp [matchesItems, ih]

theorem matchesFields_iff {record properties : List (JsString × Json)} :
    matchesFields record properties = true ↔ ∀ entry ∈ record, ∃ child,
      get entry.1 properties = some child ∧ entry.2.matchesSchema child = true := by
  induction record with
  | nil => simp [matchesFields]
  | cons entry record ih =>
    obtain ⟨key, x⟩ := entry
    simp only [matchesFields, Bool.and_eq_true, ih, List.forall_mem_cons]
    refine and_congr_left fun _ => ?_
    cases get key properties <;> simp

/-- An object schema: its properties are schemas. -/
theorem isSchemaAt_object (h : isSchemaAt H levels schema = true)
    (htype : schema.hasType "object" = true) : ∃ below children, levels = below + 1 ∧
      schema.prop "properties" = some (.obj children) ∧
      ∀ entry ∈ children, (entry.1 ≠ [] ∧ entry.1.length ≤ 80) ∧
        isSchemaAt H below entry.2 = true := by
  cases levels with
  | zero => cases h
  | succ below =>
    cases schema with
    | obj item =>
      simp only [isSchemaAt, Bool.and_eq_true] at h
      obtain ⟨⟨⟨⟨⟨-, hobject⟩, -⟩, -⟩, -⟩, -⟩ := h
      rw [if_pos htype] at hobject
      simp only [Bool.and_eq_true] at hobject
      obtain ⟨-, hproperties⟩ := hobject
      split at hproperties
      · rename_i children hchildren
        simp only [Bool.and_eq_true, List.all_eq_true, bne_iff_ne, ne_eq,
          decide_eq_true_eq] at hproperties
        exact ⟨below, children, rfl, hchildren, hproperties.1.2⟩
      · cases hproperties
    | _ => cases h

/-- An array schema: its items have a schema, and there are at most a thousand. -/
theorem isSchemaAt_array (h : isSchemaAt H levels schema = true)
    (htype : schema.hasType "array" = true) : ∃ below child n, levels = below + 1 ∧
      schema.prop "items" = some child ∧ isSchemaAt H below child = true ∧
      schema.prop "maxItems" = some (.num n) ∧ n ≤ 1000 := by
  cases levels with
  | zero => cases h
  | succ below =>
    cases schema with
    | obj item =>
      simp only [isSchemaAt, Bool.and_eq_true] at h
      obtain ⟨⟨⟨⟨-, harray⟩, -⟩, -⟩, -⟩ := h
      rw [if_pos htype] at harray
      simp only [Bool.and_eq_true] at harray
      obtain ⟨hitems, hmax⟩ := harray
      split at hitems
      · rename_i child hchild
        split at hmax
        · rename_i n hn
          cases n with
          | num q =>
            simp only [isBound, Bool.and_eq_true, beq_iff_eq, decide_eq_true_eq] at hmax
            have hq : q = q.num := (Rat.den_eq_one_iff q).1 hmax.1.1 |>.symm
            refine ⟨below, child, q, rfl, hchild, hitems, hn, ?_⟩
            rw [hq]
            exact_mod_cast hmax.2
          | _ => cases hmax
        · cases hmax
      · cases hitems
    | _ => cases h

/-- The property of an object that matches. -/
theorem matches_property {key : JsString} {record : List (JsString × Json)} {x : Json}
    (h : (Json.obj record).matchesSchema schema = true) (hx : get key record = some x) :
    ∃ child, get key (properties schema) = some child ∧ x.matchesSchema child = true := by
  simp only [matchesSchema, Bool.and_eq_true] at h
  obtain ⟨-, hfields⟩ := h
  split at hfields
  · rename_i children hchildren
    obtain ⟨child, hchild, hmatch⟩ :=
      matchesFields_iff.1 hfields (key, x) (mem_of_get hx)
    refine ⟨child, ?_, hmatch⟩
    rw [properties, hchildren]
    exact hchild
  · cases hfields

/-- A required property is there. -/
theorem matches_required {key : JsString} {record : List (JsString × Json)}
    (h : (Json.obj record).matchesSchema schema = true) (hkey : requires key schema = true) :
    ∃ x, get key record = some x := by
  unfold requires at hkey
  split at hkey
  · rename_i names hnames
    obtain ⟨name, hname, heq⟩ := List.any_eq_true.1 hkey
    simp only [matchesSchema, Bool.and_eq_true, hnames, List.all_eq_true] at h
    have hget := h.1.2 name hname
    cases name with
    | str s =>
      rw [beq_iff_eq.1 heq] at hget
      exact Option.isSome_iff_exists.1 hget
    | _ => cases heq
  · cases hkey

/-! ### Paths -/

/-- `Part x y`: `x` is inside of `y`. -/
inductive Part (x : Json) : Json → Prop
  | refl : Part x x
  | item {y : Json} {items : List Json} (h : y ∈ items) (inside : Part x y) : Part x (.arr items)
  | field {y : Json} {key : JsString} {record : List (JsString × Json)} (h : (key, y) ∈ record)
      (inside : Part x y) : Part x (.obj record)

/-- **A path that is accepted exists**, in every value that matches; what it leads to matches what
the path leads to in the schema. -/
theorem schemaAtPath_sound {path : List Key} {found : Json}
    (hpath : schemaAtPath schema path = .ok found) (hschema : isSchemaAt H levels schema = true)
    (hvalue : value.matchesSchema schema = true) :
    (∃ below, isSchemaAt H below found = true) ∧ ∃ x, follow value path = .ok x ∧
      x.matchesSchema found = true ∧ Part x value := by
  induction path generalizing schema value levels with
  | nil =>
    obtain rfl := Except.ok.inj hpath
    exact ⟨⟨levels, hschema⟩, value, rfl, hvalue, .refl⟩
  | cons key path ih =>
    cases key with
    | index n => cases hpath
    | name key =>
      rw [schemaAtPath] at hpath
      split at hpath
      · rename_i child hchild
        split_ifs at hpath with hobject
        · rw [Bool.and_eq_true] at hobject
          obtain ⟨below, children, -, hchildren, hall⟩ := isSchemaAt_object hschema hobject.1
          have hmem : (key, child) ∈ children := by
            rw [properties, hchildren] at hchild
            exact mem_of_get hchild
          -- only an object matches an object schema
          cases value with
          | obj record =>
            obtain ⟨x, hx⟩ := matches_required hvalue hobject.2
            obtain ⟨child', hchild', hmatch⟩ := matches_property hvalue hx
            obtain rfl := Option.some.inj (hchild.symm.trans hchild')
            obtain ⟨hbelow, y, hy, hmatches, hpart⟩ := ih hpath (hall _ hmem).2 hmatch
            refine ⟨hbelow, y, ?_, hmatches, .field (mem_of_get hx) hpart⟩
            rw [follow, own, Key.text, hx]
            exact hy
          | arr items =>
            simp only [matchesSchema, Bool.and_eq_true] at hvalue
            exact hasType_absurd hobject.1 hvalue.1.1 (by decide)
          | null => exact hasType_absurd hobject.1 hvalue (by decide)
          | bool b => exact hasType_absurd hobject.1 hvalue (by decide)
          | infinite => cases hvalue
          | str s =>
            simp only [matchesSchema, Bool.and_eq_true] at hvalue
            exact hasType_absurd hobject.1 hvalue.1 (by decide)
          | num q =>
            simp only [matchesSchema, Bool.and_eq_true, Bool.or_eq_true] at hvalue
            rcases hvalue.1.1 with h | h
            · exact hasType_absurd hobject.1 h (by decide)
            · exact hasType_absurd hobject.1 h.1 (by decide)
        · cases hpath
      · cases hpath

/-! ### Compatible schemas -/

theorem compatibleType_cases (h : compatibleType source target = true) :
    (∀ name, source.hasType name = true → target.hasType name = true) ∨
      (source.hasType "integer" = true ∧ target.hasType "number" = true) := by
  rw [compatibleType, Bool.or_eq_true, Bool.and_eq_true] at h
  refine h.imp_left fun h name hname => ?_
  split at h
  · rename_i a b ha hb
    rw [hasType_iff] at hname ⊢
    rw [hb, ← beq_iff_eq.1 h, ← ha, hname]
  · cases h

/-- A type that is not numeric is the same. -/
theorem compatibleType_of_ne {name : String} (h : compatibleType source target = true)
    (hsource : source.hasType name = true) (hne : name ≠ "integer") :
    target.hasType name = true := by
  rcases compatibleType_cases h with h | h
  · exact h name hsource
  · exact absurd (hasType_unique hsource h.1) hne

/-- A bound that holds of the source holds of the target. -/
theorem compatibleBound_sound {le : ℚ → ℚ → Bool} {p : Json → Bool} {s t : Option Json}
    (h : compatibleBound le s t = true) (hs : absentOr p s = true)
    (hle : ∀ a b, le a b = true → p (.num a) = true → p (.num b) = true) :
    absentOr p t = true := by
  cases t with
  | none => rfl
  | some b =>
    unfold compatibleBound at h
    split at h
    · rename_i hnone
      cases hnone
    · rename_i a b' hb
      obtain rfl := Option.some.inj hb
      exact hle a b' h hs
    · cases h

/-- **Compatible schemas.**  What fits the source fits the target. -/
theorem compatibleAt_sound {n : ℕ} (h : compatibleAt n source target = true)
    (htarget : isSchemaAt H levels target = true) (hvalue : value.matchesSchema source = true) :
    value.matchesSchema target = true := by
  induction n generalizing source target value levels with
  | zero => cases h
  | succ n ih =>
    simp only [compatibleAt, Bool.and_eq_true] at h
    obtain ⟨⟨⟨⟨htype, hlength⟩, hmin⟩, hmax⟩, hinner⟩ := h
    cases value with
    | null => exact compatibleType_of_ne htype hvalue (by decide)
    | bool b => exact compatibleType_of_ne htype hvalue (by decide)
    | infinite => cases hvalue
    | str s =>
      simp only [matchesSchema, Bool.and_eq_true] at hvalue ⊢
      refine ⟨compatibleType_of_ne htype hvalue.1 (by decide), ?_⟩
      refine compatibleBound_sound hlength hvalue.2 fun a b hab ha => ?_
      simp only [decide_eq_true_eq] at hab ha ⊢
      exact ha.trans hab
    -- An integer fits a target of type number, too.
    | num q =>
      simp only [matchesSchema, Bool.and_eq_true, Bool.or_eq_true] at hvalue ⊢
      refine ⟨⟨?_, ?_⟩, ?_⟩
      · rcases compatibleType_cases htype with hsame | ⟨-, hnumber⟩
        · exact hvalue.1.1.imp (hsame _) (And.imp_left (hsame _))
        · exact Or.inl hnumber
      · refine compatibleBound_sound hmin hvalue.1.2 fun a b hab ha => ?_
        simp only [decide_eq_true_eq] at hab ha ⊢
        exact hab.trans ha
      · refine compatibleBound_sound hmax hvalue.2 fun a b hab ha => ?_
        simp only [decide_eq_true_eq] at hab ha ⊢
        exact ha.trans hab
    | arr items =>
      simp only [matchesSchema, Bool.and_eq_true] at hvalue ⊢
      obtain ⟨⟨hsource, hcount⟩, hitems⟩ := hvalue
      -- The target is an array schema, whose items are checked one level below.
      have htype' := compatibleType_of_ne htype hsource (by decide)
      obtain ⟨below, child, -, -, hchild, hbelow, -, -⟩ := isSchemaAt_array htarget htype'
      rw [if_pos htype', Bool.and_eq_true, hchild] at hinner
      refine ⟨⟨htype', ?_⟩, ?_⟩
      · refine compatibleBound_sound hinner.1 hcount fun a b hab ha => ?_
        simp only [decide_eq_true_eq] at hab ha ⊢
        exact ha.trans hab
      · cases hsourceItems : source.prop "items" with
        | none => rw [hsourceItems] at hitems; cases hitems
        | some child' =>
          rw [hsourceItems] at hitems hinner
          rw [hchild]
          refine matchesItems_iff.2 fun x hx => ?_
          exact ih hinner.2 hbelow (matchesItems_iff.1 hitems x hx)
    | obj record =>
      have hrecord := hvalue
      simp only [matchesSchema, Bool.and_eq_true] at hvalue ⊢
      have htype' := compatibleType_of_ne htype hvalue.1.1 (by decide)
      obtain ⟨below, children, -, hchildren, hall⟩ := isSchemaAt_object htarget htype'
      have hnotArray : ¬ target.hasType "array" = true := fun h => by
        exact hasType_absurd htype' h (by decide)
      rw [if_neg hnotArray, if_pos htype', Bool.and_eq_true] at hinner
      refine ⟨⟨htype', ?_⟩, ?_⟩
      -- What the target requires the source requires, and so the record has it.
      · have hrequired := hinner.1
        split
        · rename_i names hnames
          simp only [hnames, List.all_eq_true] at hrequired ⊢
          intro name hname
          have hsource := hrequired name hname
          cases name with
          | str key =>
            obtain ⟨x, hx⟩ := matches_required hrecord hsource
            simp only [hx, Option.isSome_some]
          | _ => cases hsource
        · rfl
      -- Every property of the record is one of the source, and so of the target.
      · simp only [hchildren]
        have hfields := hvalue.2
        split at hfields
        · rename_i sourceChildren hsourceChildren
          refine matchesFields_iff.2 fun entry hentry => ?_
          obtain ⟨child, hchild, hmatch⟩ := matchesFields_iff.1 hfields entry hentry
          have hpair := List.all_eq_true.1 hinner.2 (entry.1, child) (by
            rw [properties, hsourceChildren]
            exact mem_of_get hchild)
          have htargetChildren : properties target = children := by rw [properties, hchildren]; rfl
          rw [htargetChildren] at hpair
          split at hpair
          · rename_i child' hchild'
            exact ⟨child', hchild', ih hpair (hall _ (mem_of_get hchild')).2 hmatch⟩
          · cases hpair
        · cases hfields

/-! ### Templates -/

variable {resolve : Resolve} {earlier : List ServiceDefinition}

theorem validateItems_ok {items : List Json} (h : validateItems H earlier items schema = .ok ()) :
    ∀ x ∈ items, validateTemplate H earlier x schema = .ok () := by
  induction items with
  | nil => intro x hx; cases hx
  | cons y items ih =>
    simp only [validateItems, bind_eq_ok] at h
    obtain ⟨_, hy, hitems⟩ := h
    intro x hx
    rcases List.mem_cons.1 hx with rfl | hx
    · exact hy
    · exact ih hitems x hx

theorem validateFields_ok {record children : List (JsString × Json)}
    (h : validateFields H earlier record children = .ok ()) : ∀ entry ∈ record,
      forbiddenKeys.contains entry.1 = false ∧ ∃ child, get entry.1 children = some child ∧
        validateTemplate H earlier entry.2 child = .ok () := by
  induction record with
  | nil => intro x hx; cases hx
  | cons entry record ih =>
    obtain ⟨key, x⟩ := entry
    rw [validateFields] at h
    split at h
    · rename_i child hchild
      split_ifs at h with hforbidden
      · cases h
      · simp only [bind_eq_ok] at h
        obtain ⟨_, hx, hrecord⟩ := h
        intro entry hentry
        rcases List.mem_cons.1 hentry with rfl | hentry
        · exact ⟨by simpa using hforbidden, child, hchild, hx⟩
        · exact ih hrecord entry hentry
    · cases h

/-- When every item can be mapped to a value with a property, so can the array. -/
theorem mapItems_ok {P : Json → Prop} {items : List Json}
    (h : ∀ x ∈ items, ∃ y, mapInput resolve x = .ok y ∧ P y) :
    ∃ ys, mapItems resolve items = .ok ys ∧ ys.length = items.length ∧ ∀ y ∈ ys, P y := by
  induction items with
  | nil => exact ⟨[], rfl, rfl, fun y hy => by cases hy⟩
  | cons x items ih =>
    obtain ⟨y, hy, hP⟩ := h x (by simp)
    obtain ⟨ys, hys, hlength, hall⟩ := ih fun x hx => h x (by simp [hx])
    refine ⟨y :: ys, ?_, by simp [hlength], List.forall_mem_cons.2 ⟨hP, hall⟩⟩
    rw [mapItems, hy, hys]
    rfl

theorem mapFields_ok {P : JsString → Json → Prop} {record : List (JsString × Json)}
    (h : ∀ entry ∈ record, ∃ y, mapInput resolve entry.2 = .ok y ∧ P entry.1 y) :
    ∃ ys, mapFields resolve record = .ok ys ∧ ys.map Prod.fst = record.map Prod.fst ∧
      ∀ entry ∈ ys, P entry.1 entry.2 := by
  induction record with
  | nil => exact ⟨[], rfl, rfl, fun y hy => by cases hy⟩
  | cons entry record ih =>
    obtain ⟨key, x⟩ := entry
    obtain ⟨y, hy, hP⟩ := h (key, x) (by simp)
    obtain ⟨ys, hys, hkeys, hall⟩ := ih fun entry hentry => h entry (by simp [hentry])
    refine ⟨(key, y) :: ys, ?_, by simp [hkeys], List.forall_mem_cons.2 ⟨hP, hall⟩⟩
    rw [mapFields, hy, hys]
    rfl

theorem get_isSome_iff {key : JsString} {record : List (JsString × Json)} :
    (get key record).isSome = true ↔ key ∈ record.map Prod.fst := by
  induction record with
  | nil => simp [Json.get]
  | cons entry record ih =>
    obtain ⟨k, x⟩ := entry
    simp only [Json.get, List.map_cons, List.mem_cons]
    split_ifs with hk
    · simp [hk]
    · simp [ih, Ne.symm hk]

/-- The resolver finds what the outputs of earlier services have. -/
def Supplies (resolve : Resolve) (earlier : List ServiceDefinition) : Prop :=
  ∀ step path definition found, earlier[step]? = some definition →
    schemaAtPath definition.outputSchema path = .ok found →
      ∃ x, resolve step path = .ok x ∧ x.matchesSchema found = true

/-- A reference that was checked is resolved to a value that fits. -/
theorem checkReference_sound {step : ℕ} {path : List Key} {x : Json} (hr : Supplies resolve earlier)
    (hschema : isSchemaAt H levels schema = true)
    (h : checkReference schema earlier step path = .ok x) :
    ∃ y, resolve step path = .ok y ∧ y.matchesSchema schema = true := by
  unfold checkReference at h
  split at h
  · cases h
  · rename_i definition hdefinition
    simp only [bind_eq_ok] at h
    obtain ⟨found, hfound, h⟩ := h
    split_ifs at h with hcompatible
    · cases h
    · obtain ⟨y, hy, hmatch⟩ := hr step path definition found hdefinition hfound
      refine ⟨y, hy, ?_⟩
      exact compatibleAt_sound (by simpa [compatibleSchema] using hcompatible) hschema hmatch

/-- A template with a reference in it is mapped to what the reference is resolved to. -/
theorem mapInput_reference {record : List (JsString × Json)} {check : Resolve} {x : Json}
    (hfrom : (get (js "$from") record).isSome = true)
    (h : mapInput check (.obj record) = .ok x) : ∃ step path,
      readReference record = some (step, path) ∧ check step path = .ok x ∧
      ∀ resolve, mapInput resolve (.obj record) = resolve step path := by
  rw [mapInput] at h
  split_ifs at h with hforbidden
  · cases h
  · split at h
    · rename_i step path hreference
      refine ⟨step, path, hreference, h, fun resolve => ?_⟩
      rw [mapInput, if_neg hforbidden, if_pos hfrom, hreference]
    · cases h

/-- **Templates.**  A template that was checked resolves, and the result matches the schema.  The
induction is on the template. -/
theorem validateTemplate_sound {template : Json} (hr : Supplies resolve earlier)
    (hschema : isSchemaAt H levels schema = true)
    (h : validateTemplate H earlier template schema = .ok ()) :
    ∃ y, mapInput resolve template = .ok y ∧ y.matchesSchema schema = true := by
  induction template using Json.ind generalizing schema levels with
  | null => exact ⟨_, rfl, (validateSchemaValue_ok.1 h).2.2⟩
  | bool b => exact ⟨_, rfl, (validateSchemaValue_ok.1 h).2.2⟩
  | num q => exact ⟨_, rfl, (validateSchemaValue_ok.1 h).2.2⟩
  | infinite => exact ⟨_, rfl, (validateSchemaValue_ok.1 h).2.2⟩
  | str s => exact ⟨_, rfl, (validateSchemaValue_ok.1 h).2.2⟩
  | arr items ih =>
    rw [validateTemplate] at h
    split_ifs at h with htype hcount
    · cases h
    · obtain ⟨below, child, n, -, hchild, hbelow, hmax, -⟩ := isSchemaAt_array hschema htype
      rw [hchild, Option.getD_some] at h
      obtain ⟨ys, hys, hlength, hall⟩ := mapItems_ok (P := fun y => y.matchesSchema child = true)
        fun x hx => ih x hx hbelow (validateItems_ok h x hx)
      refine ⟨.arr ys, by rw [mapInput, hys]; rfl, ?_⟩
      simp only [matchesSchema, Bool.and_eq_true, hchild, hmax, htype, absentOr, true_and]
      refine ⟨?_, matchesItems_iff.2 hall⟩
      rw [hmax] at hcount
      simpa [compatibleBound, hlength] using hcount
    · -- an array fits only an array schema
      have hmatch := (validateSchemaValue_ok.1 h).2.2
      simp only [matchesSchema, Bool.and_eq_true] at hmatch
      exact absurd hmatch.1.1 htype
  | obj record ih =>
    rw [validateTemplate] at h
    split_ifs at h with hfrom htype hmissing
    · simp only [bind_eq_ok] at h
      obtain ⟨x, hx, -⟩ := h
      obtain ⟨step, path, -, hcheck, hmap⟩ := mapInput_reference hfrom hx
      obtain ⟨y, hy, hmatch⟩ := checkReference_sound hr hschema hcheck
      exact ⟨y, (hmap resolve).trans hy, hmatch⟩
    · cases h
    · obtain ⟨below, children, -, hchildren, hall⟩ := isSchemaAt_object hschema htype
      have hproperties : properties schema = children := by rw [properties, hchildren]; rfl
      rw [hproperties] at h
      have hfields := validateFields_ok h
      obtain ⟨ys, hys, hkeys, hmatches⟩ := mapFields_ok
        (P := fun key y => ∃ child, get key children = some child ∧ y.matchesSchema child = true)
        fun entry hentry => by
          obtain ⟨-, child, hchild, hvalid⟩ := hfields entry hentry
          obtain ⟨y, hy, hmatch⟩ := ih entry hentry (hall _ (mem_of_get hchild)).2 hvalid
          exact ⟨y, hy, child, hchild, hmatch⟩
      have hforbidden : ¬ (record.any fun entry => forbiddenKeys.contains entry.1) = true := by
        intro hany
        obtain ⟨entry, hentry, hkey⟩ := List.any_eq_true.1 hany
        rw [(hfields entry hentry).1] at hkey
        cases hkey
      refine ⟨.obj ys, by rw [mapInput, if_neg hforbidden, if_neg hfrom, hys]; rfl, ?_⟩
      simp only [matchesSchema, Bool.and_eq_true, hchildren, htype, true_and]
      refine ⟨?_, matchesFields_iff.2 hmatches⟩
      -- the keys are those of the template
      split
      · rename_i names hnames
        simp only [hnames, List.any_eq_true, not_exists, not_and] at hmissing
        refine List.all_eq_true.2 fun name hname => ?_
        have hthere := hmissing name hname
        cases name with
        | str key =>
          rw [get_isSome_iff, hkeys, ← get_isSome_iff]
          exact Option.isSome_iff_ne_none.2 (by simpa using hthere)
        | _ => exact absurd rfl hthere
      · rfl
    · -- an object fits only an object schema
      have hmatch := (validateSchemaValue_ok.1 h).2.2
      simp only [matchesSchema, Bool.and_eq_true] at hmatch
      exact absurd hmatch.1.1 htype

/-- What resolves with one resolver resolves in the same way with one that finds more. -/
theorem mapInput_mono {resolve' : Resolve} {template y : Json}
    (hr : ∀ step path x, resolve step path = .ok x → resolve' step path = .ok x)
    (h : mapInput resolve template = .ok y) : mapInput resolve' template = .ok y := by
  induction template using Json.ind generalizing y with
  | arr items ih =>
    have hitems : ∀ l ys, (∀ x ∈ l, x ∈ items) → mapItems resolve l = .ok ys →
        mapItems resolve' l = .ok ys := by
      intro l
      induction l with
      | nil => intro ys _ h; exact h
      | cons x l ihl =>
        intro ys hl h
        simp only [mapItems, bind_eq_ok, pure_eq_ok] at h ⊢
        obtain ⟨z, hz, zs, hzs, rfl⟩ := h
        exact ⟨z, ih x (hl x (by simp)) hz, zs, ihl zs (fun x hx => hl x (by simp [hx])) hzs, rfl⟩
    rw [mapInput] at h ⊢
    cases hmapped : mapItems resolve items with
    | error e => rw [hmapped] at h; cases h
    | ok ys =>
      rw [hitems items ys (fun _ => id) hmapped]
      rw [hmapped] at h
      exact h
  | obj record ih =>
    have hfields : ∀ l ys, (∀ x ∈ l, x ∈ record) → mapFields resolve l = .ok ys →
        mapFields resolve' l = .ok ys := by
      intro l
      induction l with
      | nil => intro ys _ h; exact h
      | cons entry l ihl =>
        intro ys hl h
        simp only [mapFields, bind_eq_ok, pure_eq_ok] at h ⊢
        obtain ⟨z, hz, zs, hzs, rfl⟩ := h
        exact ⟨z, ih entry (hl entry (by simp)) hz, zs,
          ihl zs (fun x hx => hl x (by simp [hx])) hzs, rfl⟩
    rw [mapInput] at h ⊢
    split_ifs at h ⊢ with hforbidden hfrom
    · cases h
    · split at h
      · exact hr _ _ _ h
      · cases h
    · cases hmapped : mapFields resolve record with
      | error e => rw [hmapped] at h; cases h
      | ok ys =>
        rw [hfields record ys (fun _ => id) hmapped]
        rw [hmapped] at h
        exact h
  | _ => exact h

end Tasks

end Obolos
