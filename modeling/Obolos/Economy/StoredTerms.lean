import Obolos.Economy.KeyOrder
import Obolos.Economy.PaidRequest
import Obolos.Platform.Database

/-!
# Terms that come back from the database

A definition and a request are stored as `jsonb` values and parsed again before every delivery.
They come back with other orders of keys, which only shows in the schemas and in the input
(`ServiceDefinition.parse_same`, `ServiceRequest.parse_same`): what was accepted once is accepted
again (`ServiceRequest.check_same`).
-/

namespace Obolos

namespace Json

/-! ### Reading objects with the same properties -/

variable {fields fields' : List (JsString × Json)} {α : Type}

theorem Same.asStr {x y : Json} (h : Same x y) : x.asStr = y.asStr := by
  cases h <;> rfl

theorem field_same {read : Json → Option α} (hread : ∀ x y, Same x y → read x = read y)
    (h : ∀ key, Option.Rel Same (get key fields) (get key fields')) (key : String) :
    field read key fields = field read key fields' := by
  have hkey := h (js key)
  unfold field
  cases hget : get (js key) fields with
  | none =>
    rw [hget] at hkey
    cases hget' : get (js key) fields' with
    | none => rfl
    | some y => rw [hget'] at hkey; cases hkey
  | some x =>
    rw [hget] at hkey
    cases hget' : get (js key) fields' with
    | none => rw [hget'] at hkey; cases hkey
    | some y =>
      rw [hget'] at hkey
      cases hkey with
      | some hsame => rw [Option.bind_some, Option.bind_some, hread x y hsame]

theorem textField_same (read : JsString → Option α)
    (h : ∀ key, Option.Rel Same (get key fields) (get key fields')) (key : String) :
    textField read key fields = textField read key fields' :=
  field_same (fun x y hsame => by rw [hsame.asStr]) h key

/-- A field that is kept as it is. -/
theorem field_kept {read : Json → Option Json} {a : Json} {key : String}
    (hread : ∀ x y b, x.Distinct → y.Distinct → Same x y → read x = some b →
      b = x ∧ read y = some y)
    (hx : Distinct (.obj fields)) (hy : Distinct (.obj fields'))
    (h : ∀ key, Option.Rel Same (get key fields) (get key fields'))
    (ha : field read key fields = .ok a) :
    ∃ a', field read key fields' = .ok a' ∧ Same a a' ∧ a.Distinct ∧ a'.Distinct := by
  obtain ⟨x, hget, hxa⟩ := Option.bind_eq_some_iff.1 (field_ok.1 ha)
  have hkey := h (js key)
  rw [hget] at hkey
  cases hget' : get (js key) fields' with
  | none => rw [hget'] at hkey; cases hkey
  | some y =>
    rw [hget'] at hkey
    cases hkey with
    | some hsame =>
      have hx := hx.field (mem_of_get hget)
      have hy := hy.field (mem_of_get hget')
      obtain ⟨rfl, hya⟩ := hread x y a hx hy hsame hxa
      exact ⟨y, field_ok.2 (by rw [hget', Option.bind_some, hya]), hsame, hx, hy⟩

/-- An object with the same properties has no other keys. -/
theorem strictFields_same {keys : List String} {x y : Json} (hx : x.Distinct) (hy : y.Distinct)
    (hsame : Same x y) (h : strictFields keys x = .ok fields) :
    ∃ fields', strictFields keys y = .ok fields' ∧ x = .obj fields ∧ y = .obj fields' ∧
      ∀ key, Option.Rel Same (get key fields) (get key fields') := by
  cases hsame with
  | @obj f f' hrel =>
    rw [strictFields] at h
    split_ifs at h with hkeys
    obtain rfl := Except.ok.inj h
    refine ⟨f', ?_, rfl, rfl, hrel⟩
    rw [strictFields, if_pos]
    rw [List.all_eq_true] at hkeys ⊢
    rintro ⟨key, v⟩ hmem
    -- The key is one of the other object.
    have hkey := hrel key
    rw [(get_eq_some hy.nodup).2 hmem] at hkey
    cases hget : get key f with
    | none => rw [hget] at hkey; cases hkey
    | some w => exact hkeys (key, w) (mem_of_get hget)
  | _ => cases h

theorem kept_schema {H : Host} : ∀ x y b : Json, x.Distinct → y.Distinct → Same x y →
    (if x.isSchema H then some x else none) = some b →
      b = x ∧ (if y.isSchema H then some y else none) = some y := by
  intro x y b hx hy hsame h
  split_ifs at h with hschema
  exact ⟨(Option.some.inj h).symm, if_pos (isSchema_same hx hy hsame ▸ hschema)⟩

/-! ### Schemas are finite -/

variable {H : Host} {x y : Json}

theorem textItems_tail (H : Host) (first : Bool) (x : Json) (items : List Json) :
    ∃ s, textItems H first (x :: items) = s ++ textItems H false items := by
  cases x with
  | null => exact ⟨(if first then [] else [44]) ++ [], rfl⟩
  | _ => exact ⟨(if first then [] else [44]) ++ text H _, rfl⟩

theorem textItems_head (H : Host) (first : Bool) (items : List Json) (h : x ≠ .null) :
    ∃ s t, textItems H first (x :: items) = s ++ text H x ++ t := by
  cases x with
  | null => exact absurd rfl h
  | _ => exact ⟨if first then [] else [44], textItems H false items, rfl⟩

/-- The text of an item that is not `null` is a part of the text of the array. -/
theorem mem_textItems {c : UInt16} {items : List Json} {first : Bool} (hne : x ≠ .null)
    (hc : c ∈ text H x) (hx : x ∈ items) : c ∈ textItems H first items := by
  induction items generalizing first with
  | nil => cases hx
  | cons y items ih =>
    rcases List.mem_cons.1 hx with rfl | hx
    · obtain ⟨s, t, h⟩ := textItems_head H first items hne
      rw [h]
      simp [hc]
    · obtain ⟨s, h⟩ := textItems_tail H first y items
      rw [h]
      exact List.mem_append_right _ (ih hx)

/-- The text of a value shows that it is not finite, or that it has an object in it. -/
theorem finite_of_text (x : Json) : (∀ c ∈ text H x, c ≠ 73 ∧ c ≠ 91) → x.finite = true := by
  induction x using ind with
  | infinite =>
    intro h
    exact absurd rfl (h 73 (show (73 : UInt16) ∈ js "Infinity" by decide)).1
  | obj fields =>
    intro h
    exact absurd rfl (h 91 (show (91 : UInt16) ∈ js "[object Object]" by decide)).2
  | arr items ih =>
    intro h
    refine finiteItems_of_forall fun x hx => ?_
    by_cases hne : x = .null
    · rw [hne]; rfl
    · exact ih x hx fun c hc => h c (mem_textItems hne hc hx)
  | _ => intro _; rfl

theorem finite_of_isRequired {names : List JsString} (h : isRequired names x = true) :
    x.finite = true := by
  cases x with
  | arr required =>
    simp only [isRequired, Bool.and_eq_true, List.all_eq_true] at h
    refine finiteItems_of_forall fun name hname => ?_
    have hstr := h.1 name hname
    cases name <;> first | rfl | cases hstr
  | _ => cases h

/-- The numbers of a schema are finite. -/
theorem finite_of_isSchemaAt {levels : ℕ} (hx : Distinct x) (h : isSchemaAt H levels x = true) :
    x.finite = true := by
  induction levels generalizing x with
  | zero => cases h
  | succ levels ih =>
    cases x with
    | obj item =>
      have hprop : ∀ key v, (js key, v) ∈ item → prop key (.obj item) = some v := by
        intro key v hmem
        exact (get_eq_some hx.nodup).2 hmem
      simp only [isSchemaAt, Bool.and_eq_true] at h
      obtain ⟨⟨⟨⟨⟨⟨hknown, htyped⟩, hobject⟩, harray⟩, hlength⟩, hmin, hmax⟩, -⟩ := h
      refine finiteFields_of_forall fun field hfield => ?_
      have hkey := List.all_eq_true.1 hknown field hfield
      obtain ⟨key, v⟩ := field
      have hv : Distinct v := hx.field hfield
      have hkey' := List.contains_iff_mem.1 hkey
      simp only [schemaKeys, List.map_cons, List.map_nil, List.mem_cons, List.not_mem_nil,
        or_false] at hkey'
      -- A bound that passes its check is a number, and so finite.
      have hnumber : ∀ {n : Json} {p : Bool}, (isNumber n && p) = true → n.finite = true := by
        intro n p hn
        cases n <;> first | rfl | cases hn
      have hbound : ∀ {n : Json} {b : ℕ}, isBound b n = true → n.finite = true := by
        intro n b hn
        cases n <;> first | rfl | cases hn
      -- One case for each key that a schema may have: every value is bounded by its check.
      rcases hkey' with rfl | rfl | rfl | rfl | rfl | rfl | rfl | rfl | rfl
      · -- the text of the type is one of the names
        rw [hprop _ _ hfield] at htyped
        have hnames : (typeNames.all fun s => s.all fun c => c != 73 && c != 91) = true := by
          decide
        have hname := List.all_eq_true.1 hnames _ (List.contains_iff_mem.1 htyped)
        simp only [List.all_eq_true, Bool.and_eq_true, bne_iff_ne, ne_eq] at hname
        exact finite_of_text (H := H) v hname
      · rw [hprop _ _ hfield] at hobject
        split_ifs at hobject
        · simp only [Bool.and_eq_true] at hobject
          cases v with
          | obj properties =>
            refine finiteFields_of_forall fun field hfield => ih (hv.field hfield) ?_
            simp only [Bool.and_eq_true, List.all_eq_true] at hobject
            exact (hobject.2.1.2 field hfield).2
          | _ => cases hobject.2
        · simp at hobject
      · rw [hprop "required" _ hfield] at hobject
        split_ifs at hobject
        · simp only [Bool.and_eq_true] at hobject
          obtain ⟨-, hproperties⟩ := hobject
          split at hproperties
          · simp only [Bool.and_eq_true] at hproperties
            exact finite_of_isRequired hproperties.2
          · cases hproperties
        · simp at hobject
      · rw [hprop "additionalProperties" _ hfield] at hobject
        split_ifs at hobject
        · simp only [Bool.and_eq_true] at hobject
          cases v <;> first | rfl | cases hobject.1
        · simp at hobject
      · rw [hprop "items" _ hfield] at harray
        split_ifs at harray
        · simp only [Bool.and_eq_true] at harray
          exact ih hv harray.1
        · simp at harray
      · rw [hprop "maxItems" _ hfield] at harray
        split_ifs at harray
        · simp only [Bool.and_eq_true] at harray
          exact hbound harray.2
        · simp at harray
      · rw [hprop "maxLength" _ hfield] at hlength
        simp only [absentOr, Bool.and_eq_true] at hlength
        exact hbound hlength.2
      · rw [hprop "minimum" _ hfield] at hmin
        exact hnumber hmin
      · rw [hprop "maximum" _ hfield] at hmax
        exact hnumber hmax
    | _ => cases h

end Json

/-! ### Definitions -/

variable {H : Host} {x y : Json}

namespace ServiceDefinition

/-- The keys of the schemas are different. -/
def Distinct (service : ServiceDefinition) : Prop :=
  service.inputSchema.Distinct ∧ service.outputSchema.Distinct

/-- The same definition, up to the order of keys in its schemas. -/
structure Same (service service' : ServiceDefinition) : Prop where
  fields : { service with
    inputSchema := service'.inputSchema, outputSchema := service'.outputSchema } = service'
  inputSchema : service.inputSchema.Same service'.inputSchema
  outputSchema : service.outputSchema.Same service'.outputSchema

variable {service service' : ServiceDefinition}

theorem parse_same (hx : x.Distinct) (hy : y.Distinct) (hsame : Json.Same x y)
    (h : parse H x = .ok service) :
    service.Distinct ∧
      ∃ service', parse H y = .ok service' ∧ service.Same service' ∧ service'.Distinct := by
  simp only [parse, ServiceTerms.readFields, bind_eq_ok, pure_eq_ok] at h
  obtain ⟨fields, hfields, terms, ⟨_, h₁, a₂, h₂, a₃, h₃, a₄, h₄, a₅, h₅, a₆, h₆, a₇, h₇, a₈, h₈,
    a₉, h₉, a₁₀, h₁₀, a₁₁, h₁₁, hterms⟩, _, h₁₂, a₁₃, h₁₃, rfl⟩ := h
  obtain ⟨fields', hfields', rfl, rfl, hrel⟩ := Json.strictFields_same hx hy hsame hfields
  obtain ⟨b₁₀, h₁₀', hs₁₀, hd₁₀, hd₁₀'⟩ := Json.field_kept Json.kept_schema hx hy hrel h₁₀
  obtain ⟨b₁₁, h₁₁', hs₁₁, hd₁₁, hd₁₁'⟩ := Json.field_kept Json.kept_schema hx hy hrel h₁₁
  have h₁' := (Json.field_same (by intro x y h; cases h <;> rfl) hrel "chainId").symm.trans h₁
  rw [Json.literalField, Json.textField_same _ hrel] at h₁₂
  rw [Json.textField_same _ hrel] at h₂ h₃ h₄ h₅ h₆ h₇ h₈ h₉ h₁₃
  refine ⟨by subst hterms; exact ⟨hd₁₀, hd₁₁⟩,
    { terms with inputSchema := b₁₀, outputSchema := b₁₁, serviceHash := a₁₃ }, ?_, ?_⟩
  · simp only [parse, ServiceTerms.readFields, bind_eq_ok, pure_eq_ok, Json.literalField]
    subst hterms
    exact ⟨fields', hfields', _, ⟨_, h₁', a₂, h₂, a₃, h₃, a₄, h₄, a₅, h₅, a₆, h₆, a₇, h₇, a₈, h₈,
      a₉, h₉, b₁₀, h₁₀', b₁₁, h₁₁', rfl⟩, _, h₁₂, a₁₃, h₁₃, rfl⟩
  · subst hterms
    exact ⟨⟨rfl, hs₁₀, hs₁₁⟩, hd₁₀', hd₁₁'⟩

/-- The checks do not look at the schemas. -/
theorem check_same (h : service.Same service') (hok : service.check H = .ok ()) :
    service'.check H = .ok () := by
  have hterms := check_ok.1 hok
  rw [← h.fields]
  exact check_ok.2 hterms

/-- A parsed definition, when lower-case addresses are addresses. -/
theorem parsed_of_parse (hlower : ∀ a : Address, H.isAddress a.text = true)
    (h : parse H x = .ok service) : service.Parsed H := by
  simp only [parse, ServiceTerms.readFields, bind_eq_ok, pure_eq_ok] at h
  obtain ⟨_, -, _, ⟨_, -, _, -, _, -, _, -, _, h₅, _, -, _, h₇, _, h₈, _, h₉, _, h₁₀, _, h₁₁, rfl⟩,
    _, -, _, -, rfl⟩ := h
  obtain ⟨s, hurl⟩ := Json.textField_ok h₅
  obtain ⟨s', hunit⟩ := Json.textField_ok h₇
  obtain ⟨_, hquantity⟩ := Json.textField_ok h₈
  obtain ⟨_, hprice⟩ := Json.textField_ok h₉
  have hschema : ∀ {key a fields}, Json.field (fun x => if x.isSchema H then some x else none)
      key fields = .ok a → a.isSchema H = true := by
    intro key a fields h
    obtain ⟨z, -, hz⟩ := Option.bind_eq_some_iff.1 (Json.field_ok.1 h)
    split_ifs at hz with hs
    exact Option.some.inj hz ▸ hs
  split_ifs at hunit with hlength
  obtain rfl := Option.some.inj hunit
  exact ⟨hlower _, hlower _, hlower _, readUrl_read hurl, hlength.1, hlength.2,
    readPositive_pos hquantity, readPositive_pos hprice, hschema h₁₀, hschema h₁₁⟩

theorem distinct_json (h : service.Distinct) : service.json.Distinct := by
  refine .obj (by simp [ServiceTerms.fields, js_inj]) ?_
  simp only [ServiceTerms.fields, List.cons_append, List.nil_append, List.forall_mem_cons,
    List.not_mem_nil, false_imp_iff, implies_true, and_true]
  exact ⟨.num _, .str _, .str _, .str _, .str _, .str _, .str _, .str _, .str _, h.1, h.2, .str _,
    .str _⟩

theorem finite_json (hd : service.Distinct) (h : service.Parsed H) :
    service.json.finite = true := by
  have hin := Json.finite_of_isSchemaAt hd.1 h.inputSchema
  have hout := Json.finite_of_isSchemaAt hd.2 h.outputSchema
  simp [json, ServiceTerms.fields, Json.finite, Json.finiteFields, hin, hout]

/-- A definition that is stored comes back as the same one. -/
theorem stored {J : Jsonb} (hlower : ∀ a : Address, H.isAddress a.text = true) (hx : x.Distinct)
    (h : parse H x = .ok service) (hstore : J.store service.json = some y) :
    y.Distinct ∧ service.Distinct ∧
      ∃ service', parse H y = .ok service' ∧ service.Same service' ∧ service'.Distinct := by
  have hparsed := parsed_of_parse hlower h
  have hdistinct := (parse_same hx hx (.refl hx) h).1
  obtain ⟨hy, hsame⟩ :=
    J.store_same (distinct_json hdistinct) (finite_json hdistinct hparsed) hstore
  exact ⟨hy, parse_same (distinct_json hdistinct) hy (hsame.symm hy (distinct_json hdistinct))
    (parse_json hparsed)⟩

end ServiceDefinition

/-! ### Requests -/

namespace ServiceRequest

variable {service service' : ServiceDefinition} {request request' : ServiceRequest}
  {receipt : Market.ServiceReceipt}

theorem parse_same (hx : x.Distinct) (hy : y.Distinct) (hsame : Json.Same x y)
    (h : parse H x = .ok request) :
    request.input.Distinct ∧
      ∃ request', parse H y = .ok request' ∧ request.Same request' ∧ request'.input.Distinct := by
  simp only [parse, bind_eq_ok, pure_eq_ok] at h
  obtain ⟨fields, hfields, _, h₁, a₂, h₂, a₃, h₃, a₄, h₄, a₅, h₅, a₆, h₆, a₇, h₇, a₈, h₈, a₉, h₉,
    a₁₀, h₁₀, a₁₁, h₁₁, s, hs, proof, hproof, _, p₁, q₂, p₂, q₃, p₃, q₄, p₄, input, hinput,
    rfl⟩ := h
  obtain ⟨fields', hfields', rfl, rfl, hrel⟩ := Json.strictFields_same hx hy hsame hfields
  have hkept : ∀ x y b : Json, x.Distinct → y.Distinct → Json.Same x y → some x = some b →
      b = x ∧ some y = some y := fun x y b _ _ _ hb => ⟨(Option.some.inj hb).symm, rfl⟩
  obtain ⟨s', hs', hsame', hds, hds'⟩ := Json.field_kept hkept hx hy hrel hs
  obtain ⟨proof', hproof', rfl, rfl, hrel'⟩ := Json.strictFields_same hds hds' hsame' hproof
  obtain ⟨input', hinput', hsameInput, hd, hd'⟩ := Json.field_kept hkept hx hy hrel hinput
  rw [Json.literalField, Json.textField_same _ hrel] at h₁
  rw [Json.textField_same _ hrel] at h₂ h₃ h₄ h₅ h₆ h₇ h₈ h₉ h₁₀ h₁₁
  have p₁' := (Json.field_same (by intro x y h; cases h <;> rfl) hrel' "chainId").symm.trans p₁
  rw [Json.textField_same _ hrel'] at p₂ p₃ p₄
  refine ⟨hd, ?_⟩
  simp only [parse, bind_eq_ok, pure_eq_ok, Json.literalField]
  refine ⟨_, ⟨fields', hfields', _, h₁, a₂, h₂, a₃, h₃, a₄, h₄, a₅, h₅, a₆, h₆, a₇, h₇, a₈, h₈, a₉, h₉,
    a₁₀, h₁₀, a₁₁, h₁₁, _, hs', proof', hproof', _, p₁', q₂, p₂, q₃, p₃, q₄, p₄, input', hinput',
    rfl⟩, ⟨rfl, hsameInput⟩, hd'⟩

/-- A parsed request, when lower-case addresses are addresses. -/
theorem parsed_of_parse (hlower : ∀ a : Address, H.isAddress a.text = true)
    (h : parse H x = .ok request) : request.Parsed H := by
  simp only [parse, bind_eq_ok, pure_eq_ok] at h
  obtain ⟨_, -, _, -, _, -, _, -, _, -, _, -, _, -, _, -, _, -, _, h₉, _, h₁₀, _, h₁₁, _, -, _, -,
    _, -, _, -, _, -, _, -, _, -, rfl⟩ := h
  obtain ⟨_, hquantity⟩ := Json.textField_ok h₉
  obtain ⟨_, hprice⟩ := Json.textField_ok h₁₀
  obtain ⟨_, hamount⟩ := Json.textField_ok h₁₁
  exact ⟨hlower _, hlower _, hlower _, readPositive_pos hquantity, readPositive_pos hprice,
    readPositive_pos hamount⟩

theorem distinct_json (h : request.input.Distinct) : request.json.Distinct := by
  have hproof : (Json.obj
      [(js "chainId", .num chainId), (js "address", .str request.settlementAddress.text),
        (js "ledgerAddress", .str request.ledgerAddress.text),
        (js "transactionHash", .str request.transactionHash.text)]).Distinct := by
    refine .obj (by simp [js_inj]) ?_
    simp only [List.forall_mem_cons, List.not_mem_nil, false_imp_iff, implies_true, and_true]
    exact ⟨.num _, .str _, .str _, .str _⟩
  refine .obj (by simp [js_inj]) ?_
  simp only [List.forall_mem_cons, List.not_mem_nil, false_imp_iff, implies_true, and_true]
  exact ⟨.str _, .str _, .str _, .str _, .str _, .str _, .str _, .str _, .str _, .str _, .str _,
    hproof, h⟩

/-- A request that is stored comes back as the same one. -/
theorem stored {J : Jsonb} {a : Bytes32} (hlower : ∀ a : Address, H.isAddress a.text = true)
    (hx : x.Distinct) (h : parse H x = .ok request)
    (hhash : request.json.canonicalJsonHash H = .ok a) (hstore : J.store request.json = some y) :
    request.input.Distinct ∧
      ∃ request', parse H y = .ok request' ∧ request.Same request' ∧ request'.input.Distinct := by
  have hinput := (parse_same hx hx (.refl hx) h).1
  obtain ⟨hy, hsame⟩ :=
    J.store_same (distinct_json hinput) (Json.finite_of_canonicalJsonHash hhash) hstore
  exact parse_same (distinct_json hinput) hy (hsame.symm hy (distinct_json hinput))
    (parse_json (parsed_of_parse hlower h))

/-- What was accepted for a service is accepted again. -/
theorem check_same (hs : service.Same service') (hr : request.Same request')
    (hservice : service.Distinct) (hservice' : service'.Distinct)
    (hinput : request.input.Distinct) (hinput' : request'.input.Distinct)
    (hok : request.check H service = .ok ()) : request'.check H service' = .ok () := by
  obtain ⟨hterms, hhash, hschema⟩ := check_ok.1 hok
  have hhash' := Json.canonicalJsonHash_same hinput hinput' hr.input hhash
  have hschema' := Json.validateSchemaValue_same hinput hinput' hr.input hservice.1 hservice'.1
    hs.inputSchema hschema
  rw [← hr.fields, ← hs.fields]
  exact check_ok.2 ⟨hterms, hhash', hschema'⟩

/-- The payment is that of the terms, not of the schemas and the input. -/
theorem verify_same (hs : service.Same service') (hr : request.Same request') :
    request'.verifyServiceSettlement H service' receipt =
      request.verifyServiceSettlement H service receipt := by
  rw [← hr.fields, ← hs.fields]
  rfl

end ServiceRequest

end Obolos
