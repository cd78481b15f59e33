import Obolos.Economy.ServiceContract
import Obolos.Js.Dates
import Obolos.Js.Lines
import Obolos.Runs.Evidence
import Obolos.Tasks.Inputs

/-!
# The work of the reference provider

`provider-work.ts`: the schemas the reference provider publishes (`providerSchemas`), the work it
does for a paid order (`executeProviderWork`) and the call of a model (`inferWithProvider`).

The buyer pays as soon as its input matches the published schema.  The work has checks of its own,
and the schemas say less than these: the text of a hash may be any short text, and a prompt may be
empty (`performs_iff`).
-/

namespace Obolos

namespace ProviderWork

open Json JsString
open Runs.Evidence (Texts validateRepos defined)
open Tasks (assertJson_ok)

/-! ### The published schemas -/

/-- `string(maxLength)` -/
def string (maxLength : ℕ) : Json :=
  .obj [(js "type", .str (js "string")), (js "maxLength", .num maxLength)]

/-- `integer` -/
def integer : Json := .obj [(js "type", .str (js "integer")), (js "minimum", .num 0)]

/-- `{type:'boolean'}` -/
def boolean : Json := .obj [(js "type", .str (js "boolean"))]

/-- An object with these properties. -/
def record (fields : List (String × Json)) : Json := .obj (fields.map fun f => (js f.1, f.2))

/-- `object(properties)` -/
def object (properties : List (String × Json)) : Json :=
  .obj [(js "type", .str (js "object")), (js "properties", record properties),
    (js "required", .arr (properties.map fun p => .str (js p.1))),
    (js "additionalProperties", .bool false)]

/-- `{input, output}` -/
structure Schemas where
  input : Json
  output : Json

/-- `providerSchemas` -/
def providerSchemas : ResourceCategory → Schemas
  | .compute =>
    { input := object [("text", string 32768)]
      output := object [("characters", integer), ("words", integer), ("bytes", integer),
        ("sha256", string 64)] }
  | .data =>
    { input := object [("repo", string 201)]
      output := object [("repo", string 201), ("stars", integer), ("forks", integer),
        ("openIssues", integer), ("pushedAt", string 40), ("sourceUrl", string 300),
        ("fetchedAt", string 40)] }
  | .verification =>
    { input := object [("text", string 32768), ("sha256", string 64)]
      output := object [("passed", boolean), ("sha256", string 64), ("check", string 100)] }
  | .storage =>
    { input := object [("text", string 32768)]
      output := object [("objectId", string 66), ("bytes", integer), ("sha256", string 64),
        ("expiresAt", string 40)] }
  | .inference =>
    { input := object [("prompt", string 4000)]
      output := object [("text", string 16000), ("model", string 100), ("promptTokens", integer),
        ("completionTokens", integer), ("requestId", string 200)] }

/-! ### The work -/

/-- `InferenceOutput` -/
structure InferenceOutput where
  text : JsString
  model : JsString
  promptTokens : ℚ
  completionTokens : ℚ
  requestId : JsString

/-- The output as a JSON value. -/
def InferenceOutput.json (output : InferenceOutput) : Json :=
  record [("text", .str output.text), ("model", .str output.model),
    ("promptTokens", .num output.promptTokens), ("completionTokens", .num output.completionTokens),
    ("requestId", .str output.requestId)]

/-- `Context`; `now` is the clock when the caller gives no time. -/
structure Context where
  orderId : JsString
  paidAt : ℚ
  leaseStartedAt : Option ℚ
  now : ℚ
  fetchEvidence : List JsString → Except JsError (List Json)
  infer : Option (JsString → Except JsError InferenceOutput)

/-- What the work needs of its platform: texts and SHA-256. -/
structure Machine where
  texts : Texts
  sha256 : List ℕ → BitVec 256

namespace Machine

variable (M : Machine)

/-- The host. -/
def host : Host := M.texts.host

/-- `digest(text)` -/
def digest (text : JsString) : JsString := hex 64 (M.sha256 text.utf8).toNat

end Machine

/-- `text.split(/\s+/u)`; `after` says that the last character was a space. -/
def splitSpaces (after : Bool) : JsString → List JsString
  | [] => [[]]
  | c :: s =>
    if JsString.isSpace c then
      if after then splitSpaces true s else [] :: splitSpaces true s
    else
      match splitSpaces false s with
      | [] => [[c]]
      | word :: words => (c :: word) :: words

/-- The number of words of a text. -/
def wordCount (text : JsString) : ℕ :=
  if text.trim ≠ [] then (splitSpaces false text.trim).length else 0

/-- `/^[a-fA-F0-9]{64}$/` -/
def isDigest (s : JsString) : Bool := decide (s.length = 64) && s.all fun c => (readDigit c).isSome

/-- `value[key]`, where the schema has a text. -/
def textOf (input : Json) (key : String) : JsString :=
  match input.prop key with
  | some (.str s) => s
  | _ => []

/-- `Number.isSafeInteger(value)` -/
def isSafeInteger (q : ℚ) : Bool := q.den == 1 && -2 ^ 53 < q.num && q.num < 2 ^ 53

section

variable (M : Machine)

/-- `case 'compute'` -/
def compute (text : JsString) : Json :=
  record [("characters", .num (codePoints text)), ("words", .num (wordCount text)),
    ("bytes", .num text.utf8Length), ("sha256", .str (M.digest text))]

/-- `case 'verification'` -/
def verification (text sha256 : JsString) : Except JsError Json := do
  if !isDigest sha256 then .error .zod
  return record [("passed", .bool (M.digest text = sha256.toLowerCase)),
    ("sha256", .str (M.digest text)),
    ("check", .str (js "SHA-256 content integrity; no claim of narrative quality"))]

/-- `case 'storage'` -/
def storage (context : Context) (text : JsString) : Except JsError Json :=
  match context.leaseStartedAt with
  | none => JsError.raise "Invalid storage service start"
  | some start => do
    if !isSafeInteger start || start < context.paidAt || start > context.now then
      JsError.raise "Invalid storage service start"
    if context.now ≥ start + 3600 then JsError.raise "Storage lease expired before delivery"
    let expiresAt ← Date.toISOString ((start.num + 3600) * 1000)
    return record [("objectId", .str context.orderId), ("bytes", .num text.utf8Length),
      ("sha256", .str (M.digest text)), ("expiresAt", .str expiresAt)]

/-- `case 'data'` -/
def data (context : Context) (repo : JsString) : Except JsError Json := do
  let repos ← validateRepos M.texts (.arr [.str repo])
  let records ← context.fetchEvidence repos
  match records with
  | [] => JsError.raise "Source did not match requested repository"
  | found :: _ =>
    if (found.prop "repo").bind asStr ≠ some repo then
      JsError.raise "Source did not match requested repository"
    return .obj (defined (["repo", "stars", "forks", "openIssues", "pushedAt", "sourceUrl",
      "fetchedAt"].map fun key => (key, found.prop key)))

/-- `case 'inference'` -/
def inference (context : Context) (prompt : JsString) : Except JsError Json :=
  match context.infer with
  | none => JsError.raise "Real inference provider is not configured"
  | some infer => (infer prompt).map InferenceOutput.json

/-- The `switch` on the category. -/
def work (context : Context) (input : Json) : ResourceCategory → Except JsError Json
  | .compute => .ok (compute M (textOf input "text"))
  | .verification => verification M (textOf input "text") (textOf input "sha256")
  | .storage => storage M context (textOf input "text")
  | .data => data M context (textOf input "repo")
  | .inference => inference context (textOf input "prompt")

/-- `executeProviderWork(category, input, context)` -/
def executeProviderWork (category : ResourceCategory) (input : Json) (context : Context) :
    Except JsError Json := do
  validateSchemaValue M.host input (providerSchemas category).input (64 * 1024)
  let output ← work M context input category
  validateSchemaValue M.host output (providerSchemas category).output (64 * 1024)
  return output

end

/-! ### The model -/

/-- The configuration of the inference provider. -/
structure Config where
  apiKey : JsString
  baseUrl : JsString
  model : JsString

/-- `text.replace(/\/$/, '')` -/
def dropSlash (s : JsString) : JsString := if s.getLast? = some 47 then s.dropLast else s

/-- `/^gpt-5-nano(?:-[\d-]+)?$/` -/
def isPinnedModel (s : JsString) : Bool :=
  let rest := s.drop 10
  decide (s.take 10 = js "gpt-5-nano") &&
    (decide (rest = []) || decide (2 ≤ rest.length ∧ rest.head? = some 45) &&
      rest.all fun c => isDigit c || c == 45)

/-- The configuration is the pinned one. -/
def Config.pinned (config : Config) : Bool :=
  decide (dropSlash config.baseUrl = js "https://api.openai.com/v1") && config.apiKey != [] &&
    isPinnedModel config.model

/-- What `transport` is called with. -/
structure Request where
  url : JsString
  authorization : JsString
  body : JsString

/-- What `transport` answers; `body` is `response.json()`. -/
structure Response where
  ok : Bool
  body : Except JsError Json

/-- What the model is told first. -/
def instructions : String :=
  "Answer the user request concisely. " ++
    "You have no tools, wallet authority, or access to credentials."

/-- The request for a prompt. -/
def request (N : Numerals) (prompt : JsString) (config : Config) : Request where
  url := js "https://api.openai.com/v1/chat/completions"
  authorization := js "Bearer " ++ config.apiKey
  body := stringify N (record [("model", .str config.model), ("max_completion_tokens", .num 1000),
    ("reasoning_effort", .str (js "minimal")),
    ("messages", .arr [
      record [("role", .str (js "system")), ("content", .str (js instructions))],
      record [("role", .str (js "user")), ("content", .str prompt)]])])

/-- `z.string().min(1).max(bound)` -/
def readText (bound : ℕ) (x : Option Json) : Option JsString :=
  (x.bind asStr).filter fun s => 1 ≤ s.length ∧ s.length ≤ bound

/-- `z.number().int().nonnegative()` -/
def readCount : Option Json → Option ℚ
  | some (.num q) => if isSafeInteger q && 0 ≤ q then some q else none
  | _ => none

/-- `z.array(z.object({message: z.object({content})})).min(1)`: the contents. -/
def readChoices (x : Option Json) : Option (List JsString) :=
  ((x.bind asArr).filter fun items => items ≠ []).bind fun items =>
    items.mapM fun item => readText 16000 ((item.prop "message").bind (prop "content"))

/-- The answer of the model. -/
def readCompletion (response : Response) : Except JsError InferenceOutput := do
  if !response.ok then JsError.raise "Inference provider did not complete"
  let body ← response.body
  let read : Option InferenceOutput := do
    let requestId ← readText 200 (body.prop "id")
    let model ← readText 100 (body.prop "model")
    let contents ← readChoices (body.prop "choices")
    let text ← contents.head?
    let promptTokens ← readCount ((body.prop "usage").bind (prop "prompt_tokens"))
    let completionTokens ← readCount ((body.prop "usage").bind (prop "completion_tokens"))
    return ⟨text, model, promptTokens, completionTokens, requestId⟩
  match read with
  | some output => .ok output
  | none => .error .zod

/-- `inferWithProvider(prompt, config, transport)` -/
def inferWithProvider (N : Numerals) (prompt : JsString) (config : Config)
    (transport : Request → Except JsError Response) : Except JsError InferenceOutput := do
  if !config.pinned then JsError.raise "Configure the pinned inference provider and model"
  if prompt.length < 1 ∨ prompt.length > 4000 then .error .zod
  let response ← transport (request N prompt config)
  readCompletion response

/-! ### Values of the published schemas -/

section

variable {H : Host} {M : Machine} {entries : List (String × Json × Json)} {name : String}
  {x child : Json}

theorem nodup_js {names : List String} (h : names.Nodup) : (names.map js).Nodup :=
  h.map fun _ _ => js_inj.1

/-- The property of a record. -/
theorem get_record {fields : List (String × Json)} (hnodup : (fields.map Prod.fst).Nodup)
    (h : (name, x) ∈ fields) : Json.get (js name) (fields.map fun f => (js f.1, f.2)) = some x := by
  have hkeys : ((fields.map fun f => (js f.1, f.2)).map Prod.fst).Nodup := by
    have hnames := nodup_js hnodup
    rw [List.map_map] at hnames ⊢
    exact hnames
  exact (get_eq_some hkeys).2 (List.mem_map.2 ⟨_, h, rfl⟩)

theorem object_type (properties : List (String × Json)) :
    (object properties).hasType "object" = true := by
  simp [object, hasType, prop, asObj, Json.get]

theorem object_properties (properties : List (String × Json)) :
    (object properties).prop "properties" = some (record properties) := by
  simp [object, prop, asObj, Json.get]

theorem object_required (properties : List (String × Json)) :
    (object properties).prop "required" = some (.arr (properties.map fun p => .str (js p.1))) := by
  simp [object, prop, asObj, Json.get]

/-- A record with matching fields matches. -/
theorem matches_record (hnodup : (entries.map Prod.fst).Nodup)
    (h : ∀ e ∈ entries, e.2.1.matchesSchema e.2.2 = true) :
    (record (entries.map fun e => (e.1, e.2.1))).matchesSchema
      (object (entries.map fun e => (e.1, e.2.2))) = true := by
  have hnames : ∀ f : Json × Json → Json,
      ((entries.map fun e => (e.1, f e.2)).map Prod.fst).Nodup := by
    intro f
    rw [List.map_map]
    exact hnodup
  rw [record, matchesSchema, object_type, object_required, object_properties]
  simp only [Bool.true_and, Bool.and_eq_true, List.all_eq_true]
  constructor
  · intro key hkey
    rw [List.map_map] at hkey
    obtain ⟨e, he, rfl⟩ := List.mem_map.1 hkey
    have hget := get_record (hnames Prod.fst) (List.mem_map.2 ⟨e, he, rfl⟩)
    exact Option.isSome_iff_exists.2 ⟨_, hget⟩
  · refine Tasks.matchesFields_iff.2 fun field hfield => ?_
    rw [List.map_map] at hfield
    obtain ⟨e, he, rfl⟩ := List.mem_map.1 hfield
    exact ⟨e.2.2, get_record (hnames Prod.snd) (List.mem_map.2 ⟨e, he, rfl⟩), h e he⟩

/-- The text a published schema asks for. -/
theorem text_of_matches {properties : List (String × Json)} {input : Json} {bound : ℕ}
    (h : input.matchesSchema (object properties) = true) (hnodup : (properties.map Prod.fst).Nodup)
    (hname : (name, string bound) ∈ properties) : (textOf input name).length ≤ bound := by
  cases input with
  | obj fields =>
    rw [matchesSchema, object_type, object_required, object_properties] at h
    simp only [Bool.true_and, Bool.and_eq_true, List.all_eq_true, record] at h
    obtain ⟨hrequired, hfields⟩ := h
    have hthere := hrequired (.str (js name)) (List.mem_map.2 ⟨_, hname, rfl⟩)
    obtain ⟨y, hy⟩ := Option.isSome_iff_exists.1 hthere
    obtain ⟨child, hchild, hmatch⟩ := Tasks.matchesFields_iff.1 hfields _ (mem_of_get hy)
    rw [get_record hnodup hname] at hchild
    obtain rfl := Option.some.inj hchild
    have hprop : (Json.obj fields).prop name = some y := hy
    rw [textOf, hprop]
    cases y with
    | str s => simpa [matchesSchema, string, hasType, prop, asObj, Json.get, absentOr] using hmatch
    | _ => simp
  | null => simp [textOf, prop, asObj]
  | bool b => simp [textOf, prop, asObj]
  | num q => simp [textOf, prop, asObj]
  | infinite => simp [textOf, prop, asObj]
  | str s => simp [textOf, prop, asObj]
  | arr items => simp [textOf, prop, asObj]

theorem matches_string {s : JsString} {bound : ℕ} (h : s.length ≤ bound) :
    (Json.str s).matchesSchema (string bound) = true := by
  simpa [matchesSchema, string, hasType, prop, asObj, Json.get, absentOr] using h

theorem matches_integer (n : ℕ) : (Json.num n).matchesSchema integer = true := by
  simp [matchesSchema, integer, hasType, prop, asObj, Json.get, absentOr]

theorem matches_boolean (b : Bool) : (Json.bool b).matchesSchema boolean = true := by
  simp [matchesSchema, boolean, hasType, prop, asObj, Json.get]

/-- The published schemas are schemas. -/
theorem isSchema_published (H : Host) (category : ResourceCategory) :
    (providerSchemas category).input.isSchema H = true ∧
      (providerSchemas category).output.isSchema H = true := by
  cases category <;> exact ⟨rfl, rfl⟩

/-! ### Limits of an output -/

/-- Whole numbers are written in decimal below `1e21`. -/
def Decimals (N : Numerals) : Prop := ∀ n : ℕ, n < 10 ^ 21 → N.text n = decimal n

/-- A value that is no array and no object, and not large. -/
def Small : Json → Prop
  | .bool _ => True
  | .num q => ∃ n : ℕ, q = n ∧ n < 10 ^ 21
  | .str s => s.length ≤ 100
  | _ => False

theorem size_small (hN : Decimals H.numerals) (h : Small x) :
    canonicalSize H.numerals x ≤ 1806 := by
  cases x with
  | bool b =>
    have hbool : canonicalSize H.numerals (.bool b) ≤ 5 := by
      cases b <;> exact Nat.le_of_ble_eq_true rfl
    omega
  | num q =>
    obtain ⟨n, rfl, hn⟩ := h
    have hdigits : (decimal n).length ≤ 21 := by
      rw [decimal, List.length_map]
      exact (Nat.length_toDigits_le_iff (by decide) (by decide)).2 hn
    have hbytes := utf8Length_le (decimal n)
    show utf8Length (H.numerals.text n) ≤ 1806
    rw [hN n hn]
    omega
  | str s =>
    have hsize := canonicalSize_str (N := H.numerals) s
    have hlength : s.length ≤ 100 := h
    omega
  | _ => exact h.elim

/-- A record of few small values is within the limits. -/
theorem assertJson_record {fields : List (String × Json)} (hN : Decimals H.numerals)
    (hlength : fields.length ≤ 16)
    (h : ∀ f ∈ fields, (js f.1 ≠ [] ∧ (js f.1).length ≤ 100) ∧ Small f.2) :
    assertJson H (record fields) (64 * 1024) = .ok () := by
  refine assertJson_ok.2 ⟨Tasks.visit_obj.2 ⟨?_, ?_⟩, ?_⟩
  · rw [List.length_map]
    omega
  · intro entry hentry
    obtain ⟨f, hf, rfl⟩ := List.mem_map.1 hentry
    obtain ⟨⟨hne, hkey⟩, hsmall⟩ := h f hf
    refine ⟨⟨hne, hkey.trans (by decide)⟩, ?_⟩
    cases hx : f.2 with
    | arr items => rw [hx] at hsmall; exact hsmall.elim
    | obj fields => rw [hx] at hsmall; exact hsmall.elim
    | infinite => rw [hx] at hsmall; exact hsmall.elim
    | _ => rfl
  · have hsum := List.sum_le_card_nsmul
      ((fields.map fun f => (js f.1, f.2)).map (fieldSize (canonicalSize H.numerals))) 3614 (by
        intro size hsize
        rw [List.map_map] at hsize
        obtain ⟨f, hf, rfl⟩ := List.mem_map.1 hsize
        obtain ⟨⟨-, hkey⟩, hsmall⟩ := h f hf
        have hvalue := size_small hN hsmall
        have hquote : (js f.1).quote.utf8Length ≤ _ := canonicalSize_str (N := H.numerals) (js f.1)
        show (js f.1).quote.utf8Length + canonicalSize H.numerals f.2 + 2 ≤ 3614
        omega)
    rw [List.length_map, List.length_map] at hsum
    change _ ≤ fields.length * 3614 at hsum
    rw [record, canonicalSize_obj]
    omega

/-- What the work returns passes the last check. -/
theorem output_ok (entries : List (String × Json × Json)) (hN : Decimals H.numerals)
    (hlength : entries.length ≤ 16)
    (hnodup : (entries.map Prod.fst).Nodup)
    (hschema : (object (entries.map fun e => (e.1, e.2.2))).isSchema H = true)
    (h : ∀ e ∈ entries, (js e.1 ≠ [] ∧ (js e.1).length ≤ 100) ∧ Small e.2.1 ∧
      e.2.1.matchesSchema e.2.2 = true) :
    validateSchemaValue H (record (entries.map fun e => (e.1, e.2.1)))
      (object (entries.map fun e => (e.1, e.2.2))) (64 * 1024) = .ok () := by
  refine validateSchemaValue_ok.2 ⟨assertJson_record hN ?_ ?_, hschema, matches_record hnodup ?_⟩
  · rwa [List.length_map]
  · intro f hf
    obtain ⟨e, he, rfl⟩ := List.mem_map.1 hf
    exact ⟨(h e he).1, (h e he).2.1⟩
  · intro e he
    exact (h e he).2.2

end

/-! ### What is sold is performed -/

section

variable {M : Machine} {context : Context} {input output : Json} {category : ResourceCategory}
  {text prompt : JsString} {config : Config}

theorem executeProviderWork_ok : executeProviderWork M category input context = .ok output ↔
    validateSchemaValue M.host input (providerSchemas category).input (64 * 1024) = .ok () ∧
      work M context input category = .ok output ∧
        validateSchemaValue M.host output (providerSchemas category).output (64 * 1024) =
          .ok () := by
  simp only [executeProviderWork, bind_eq_ok, pure_eq_ok]
  constructor
  · rintro ⟨_, hinput, _, hwork, _, houtput, rfl⟩
    exact ⟨hinput, hwork, houtput⟩
  · rintro ⟨hinput, hwork, houtput⟩
    exact ⟨_, hinput, _, hwork, _, houtput, rfl⟩

theorem length_splitSpaces (after : Bool) (s : JsString) :
    (splitSpaces after s).length ≤ s.length + 1 := by
  induction s generalizing after with
  | nil => exact Nat.le_refl 1
  | cons c s ih =>
    have hnext := ih true
    have hword := ih false
    unfold splitSpaces
    split
    · split
      · rw [List.length_cons]
        omega
      · rw [List.length_cons, List.length_cons]
        omega
    · split
      · simp
      · rename_i word words heq
        rw [heq] at hword
        exact hword.trans (Nat.le_succ _)

theorem wordCount_le (s : JsString) : wordCount s ≤ s.length + 1 := by
  have hwords := length_splitSpaces false s.trim
  have htrim := (trim_infixOf s).length_le
  unfold wordCount
  split
  · omega
  · exact Nat.zero_le _

theorem length_digest (text : JsString) : (M.digest text).length = 64 := hex_length 64 _

/-- The counts of a text of at most 32768 characters. -/
theorem counts_small (h : text.length ≤ 32768) :
    codePoints text < 10 ^ 21 ∧ wordCount text < 10 ^ 21 ∧ text.utf8Length < 10 ^ 21 := by
  have hpoints := codePoints_le text
  have hwords := wordCount_le text
  have hbytes := utf8Length_le text
  refine ⟨?_, ?_, ?_⟩ <;> omega

theorem compute_ok (hN : Decimals M.host.numerals) (h : text.length ≤ 32768) :
    validateSchemaValue M.host (compute M text) (providerSchemas .compute).output (64 * 1024) =
      .ok () := by
  obtain ⟨hpoints, hwords, hbytes⟩ := counts_small h
  have hdigest := length_digest (M := M) text
  refine output_ok [("characters", .num (codePoints text), integer),
    ("words", .num (wordCount text), integer), ("bytes", .num text.utf8Length, integer),
    ("sha256", .str (M.digest text), string 64)]
    hN (by simp) (by simp) (isSchema_published M.host .compute).2 ?_
  simp only [List.forall_mem_cons, matches_integer, matches_string hdigest.le]
  refine ⟨⟨by decide, ⟨_, rfl, hpoints⟩, trivial⟩, ⟨by decide, ⟨_, rfl, hwords⟩, trivial⟩,
    ⟨by decide, ⟨_, rfl, hbytes⟩, trivial⟩, ⟨by decide, ?_, trivial⟩, by simp⟩
  show (M.digest text).length ≤ 100
  omega

theorem verification_iff {sha256 : JsString} :
    (∃ output, verification M text sha256 = .ok output) ↔ isDigest sha256 = true := by
  unfold verification
  cases isDigest sha256 with
  | true => simp [pure, Except.pure]
  | false => simp [bind, Except.bind]

theorem verification_ok {sha256 : JsString} (hN : Decimals M.host.numerals)
    (h : verification M text sha256 = .ok output) :
    validateSchemaValue M.host output (providerSchemas .verification).output (64 * 1024) =
      .ok () := by
  have hdigest := length_digest (M := M) text
  simp only [verification, JsError.throwIf_eq_ok, pure_eq_ok] at h
  obtain ⟨-, rfl⟩ := h
  refine output_ok [("passed", .bool (M.digest text = sha256.toLowerCase), boolean),
    ("sha256", .str (M.digest text), string 64),
    ("check", .str (js "SHA-256 content integrity; no claim of narrative quality"), string 100)]
    hN (by simp) (by simp) (isSchema_published M.host .verification).2 ?_
  simp only [List.forall_mem_cons, matches_boolean, matches_string hdigest.le]
  refine ⟨⟨by decide, trivial, trivial⟩, ⟨by decide, ?_, trivial⟩,
    ⟨by decide, (by decide : List.length _ ≤ 100), matches_string (by decide)⟩, by simp⟩
  show (M.digest text).length ≤ 100
  omega

/-- The lease has started after the payment, and it has not ended. -/
def Context.Leased (context : Context) : Prop := ∃ start, context.leaseStartedAt = some start ∧
  context.paidAt ≤ start ∧ start ≤ context.now ∧ context.now < start + 3600

/-- The lease starts at a whole second, and its end is a date. -/
def Context.Dated (context : Context) : Prop := ∀ start, context.leaseStartedAt = some start →
  isSafeInteger start = true ∧ Date.IsDate ((start.num + 3600) * 1000)

theorem storage_iff (h : context.Leased) :
    (∃ output, storage M context text = .ok output) ↔ context.Dated := by
  obtain ⟨start, hstart, hpaid, hstarted, hleft⟩ := h
  have hlate : ¬ context.now ≥ start + 3600 := not_le.2 hleft
  simp only [storage, hstart, JsError.raise, JsError.throwIf_eq_ok, bind_eq_ok, pure_eq_ok,
    Date.toISOString_ok, Bool.or_eq_true, Bool.not_eq_true', decide_eq_true_eq, not_or,
    Bool.not_eq_false, not_lt, hlate, not_false_eq_true, true_and, hpaid, hstarted, and_true]
  constructor
  · rintro ⟨_, hsafe, _, ⟨hdate, -⟩, -⟩ start' heq
    obtain rfl := Option.some.inj (hstart.symm.trans heq)
    exact ⟨hsafe, hdate⟩
  · intro hdated
    obtain ⟨hsafe, hdate⟩ := hdated start hstart
    exact ⟨_, hsafe, _, ⟨hdate, rfl⟩, rfl⟩

theorem storage_ok (hN : Decimals M.host.numerals) (htext : text.length ≤ 32768)
    (horder : context.orderId.length ≤ 66) (h : storage M context text = .ok output) :
    validateSchemaValue M.host output (providerSchemas .storage).output (64 * 1024) = .ok () := by
  have hdigest := length_digest (M := M) text
  obtain ⟨-, -, hbytes⟩ := counts_small htext
  unfold storage at h
  split at h
  · cases h
  · simp only [JsError.raise, JsError.throwIf_eq_ok, bind_eq_ok, pure_eq_ok,
      Date.toISOString_ok] at h
    obtain ⟨-, -, expiresAt, ⟨-, rfl⟩, rfl⟩ := h
    rename_i start _
    have hdate := Date.length_isoText ((start.num + 3600) * 1000)
    refine output_ok [("objectId", .str context.orderId, string 66),
      ("bytes", .num text.utf8Length, integer), ("sha256", .str (M.digest text), string 64),
      ("expiresAt", .str (Date.isoText ((start.num + 3600) * 1000)), string 40)]
      hN (by simp) (by simp) (isSchema_published M.host .storage).2 ?_
    simp only [List.forall_mem_cons, matches_integer, matches_string hdigest.le,
      matches_string horder, matches_string (hdate.trans (by decide : 27 ≤ 40))]
    refine ⟨⟨by decide, ?_, trivial⟩, ⟨by decide, ⟨_, rfl, hbytes⟩, trivial⟩,
      ⟨by decide, ?_, trivial⟩, ⟨by decide, ?_, trivial⟩, by simp⟩
    · exact horder.trans (by decide)
    · exact hdigest.le.trans (by decide)
    · exact hdate.trans (by decide)

/-- The provider returns an output that matches the published schema. -/
def Delivers (M : Machine) (category : ResourceCategory) (input : Json) (context : Context) :
    Prop :=
  ∃ output, executeProviderWork M category input context = .ok output ∧
    output.matchesSchema (providerSchemas category).output = true

/-- The prompt reaches the model, and nothing but the answer decides what becomes of it. -/
def Asks (M : Machine) (input : Json) (context : Context) (config : Config) : Prop :=
  ∃ r, ∀ transport,
    executeProviderWork M .inference input { context with
      infer := some fun prompt => inferWithProvider M.host.numerals prompt config transport } = do
    let response ← transport r
    let output ← readCompletion response
    validateSchemaValue M.host output.json (providerSchemas .inference).output (64 * 1024)
    return output.json

/-- What is sold in a category is performed for an input. -/
def Performs (M : Machine) (input : Json) (context : Context) (config : Config) :
    ResourceCategory → Prop
  | .storage => context.Leased → Delivers M .storage input context
  | .inference => config.pinned = true → Asks M input context config
  | category => Delivers M category input context

/-- The inputs the work can do something with. -/
def Workable (input : Json) (context : Context) (config : Config) : ResourceCategory → Prop
  | .compute => True
  | .verification => isDigest (textOf input "sha256") = true
  | .storage => context.Leased → context.Dated
  | .inference => config.pinned = true → textOf input "prompt" ≠ []
  | .data => True

theorem delivers_iff (h : validateSchemaValue M.host input (providerSchemas category).input
    (64 * 1024) = .ok ())
    (hok : ∀ output, work M context input category = .ok output →
      validateSchemaValue M.host output (providerSchemas category).output (64 * 1024) = .ok ()) :
    Delivers M category input context ↔ ∃ output, work M context input category = .ok output := by
  constructor
  · rintro ⟨output, houtput, -⟩
    exact ⟨output, (executeProviderWork_ok.1 houtput).2.1⟩
  · rintro ⟨output, houtput⟩
    have hlast := hok output houtput
    refine ⟨output, executeProviderWork_ok.2 ⟨h, houtput, hlast⟩, ?_⟩
    exact (validateSchemaValue_ok.1 hlast).2.2

theorem asks_iff (h : validateSchemaValue M.host input (providerSchemas .inference).input
    (64 * 1024) = .ok ()) (hpinned : config.pinned = true)
    (hprompt : (textOf input "prompt").length ≤ 4000) :
    Asks M input context config ↔ textOf input "prompt" ≠ [] := by
  -- `h` is rewritten to the step that has succeeded.
  have hbind : ∀ {α : Type} {f : Unit → Except JsError α},
      (validateSchemaValue M.host input (providerSchemas .inference).input (64 * 1024) >>= f) =
        f () := by
    intro α f
    rw [h]
    rfl
  simp only [Asks, executeProviderWork, hbind, work, inference, inferWithProvider, hpinned]
  constructor
  · rintro ⟨r, hr⟩ hnil
    have hfail := hr fun _ => .error .other
    simp [hnil, bind, Except.bind, Except.map] at hfail
  · intro hne
    have hlength := List.length_pos_iff.2 hne
    have hbounds : ¬ ((textOf input "prompt").length < 1 ∨
        (textOf input "prompt").length > 4000) := by omega
    refine ⟨request M.host.numerals (textOf input "prompt") config, fun transport => ?_⟩
    simp only [hbounds]
    cases transport (request M.host.numerals (textOf input "prompt") config) with
    | error e => rfl
    | ok response =>
      show ((readCompletion response).map _ >>= _) = (readCompletion response >>= _)
      cases readCompletion response <;> rfl

/-- **What the reference provider sells.**  An input that the published schema accepts is performed
exactly if it is workable. -/
theorem performs_iff (hN : Decimals M.host.numerals) (hcategory : category ≠ .data)
    (horder : context.orderId.length ≤ 66)
    (h : validateSchemaValue M.host input (providerSchemas category).input (64 * 1024) = .ok ()) :
    Performs M input context config category ↔ Workable input context config category := by
  have hmatch := (validateSchemaValue_ok.1 h).2.2
  cases category with
  | data => exact absurd rfl hcategory
  | compute =>
    have htext : (textOf input "text").length ≤ 32768 :=
      text_of_matches hmatch (by simp) (List.mem_singleton_self _)
    refine (delivers_iff h fun output houtput => ?_).trans ⟨fun _ => trivial, fun _ => ⟨_, rfl⟩⟩
    obtain rfl := Except.ok.inj houtput
    exact compute_ok hN htext
  | verification =>
    exact (delivers_iff h fun output houtput => verification_ok hN houtput).trans verification_iff
  | storage =>
    have htext : (textOf input "text").length ≤ 32768 :=
      text_of_matches hmatch (by simp) (List.mem_singleton_self _)
    have hdelivers := delivers_iff h fun output houtput => storage_ok hN htext horder houtput
    exact forall_congr' fun hleased => hdelivers.trans (storage_iff hleased)
  | inference =>
    have hprompt : (textOf input "prompt").length ≤ 4000 :=
      text_of_matches hmatch (by simp) (List.mem_singleton_self _)
    exact forall_congr' fun hpinned => asks_iff h hpinned hprompt

end

/-! ### Two orders -/

namespace Demo

def machine : Machine where
  texts := ⟨.plain, toLowerCase, fun _ => true⟩
  sha256 _ := 0

def context : Context where
  orderId := js "0x"
  paidAt := 100
  leaseStartedAt := some 200
  now := 300
  fetchEvidence _ := .error .other
  infer := none

def config : Config := ⟨js "key", js "https://api.openai.com/v1/", js "gpt-5-nano"⟩

/-- An order of a verification. -/
def order (sha256 : JsString) : Json := record [("text", .str (js "text")), ("sha256", .str sha256)]

theorem decimals : Decimals machine.host.numerals := by
  intro n _
  show (if (n : ℚ).num < 0 then [45] else []) ++ fractionText (n : ℚ).num.natAbs (n : ℚ).den = _
  rw [Rat.num_natCast, Rat.den_natCast, if_neg (by omega)]
  simp [fractionText]

theorem order_ok {sha256 : JsString} (h : sha256.length ≤ 64) :
    validateSchemaValue machine.host (order sha256) (providerSchemas .verification).input
      (64 * 1024) = .ok () := by
  have hlength : sha256.length ≤ 100 := h.trans (by decide)
  refine output_ok [("text", .str (js "text"), string 32768), ("sha256", .str sha256, string 64)]
    decimals (by simp) (by simp) (isSchema_published _ .verification).1 ?_
  simp only [List.forall_mem_cons, matches_string h]
  exact ⟨⟨by decide, (by decide : List.length _ ≤ 100), matches_string (by decide)⟩,
    ⟨by decide, hlength, trivial⟩, by simp⟩

end Demo

/-- A verification against a hash of 64 digits is delivered. -/
theorem performs_digest :
    Delivers Demo.machine .verification (Demo.order (List.replicate 64 97)) Demo.context := by
  have hdigest : isDigest (textOf (Demo.order (List.replicate 64 97)) "sha256") = true := by
    decide +kernel
  have hperforms : Performs Demo.machine (Demo.order (List.replicate 64 97)) Demo.context
      Demo.config .verification :=
    (performs_iff Demo.decimals (by decide) (by decide) (Demo.order_ok (by decide))).2 hdigest
  exact hperforms

/-- The published schema accepts a hash of three digits; the work is paid for and then refused. -/
theorem short_digest_refused : ∃ input,
    validateSchemaValue Demo.machine.host input (providerSchemas .verification).input (64 * 1024) =
      .ok () ∧ ¬ Delivers Demo.machine .verification input Demo.context := by
  have hrefused : isDigest (textOf (Demo.order (js "abc")) "sha256") = false := by decide +kernel
  refine ⟨Demo.order (js "abc"), Demo.order_ok (by decide), ?_⟩
  rintro ⟨output, houtput, -⟩
  have hwork : verification Demo.machine (textOf (Demo.order (js "abc")) "text")
      (textOf (Demo.order (js "abc")) "sha256") = .ok output :=
    (executeProviderWork_ok.1 houtput).2.1
  have hdigest := verification_iff.1 ⟨output, hwork⟩
  rw [hrefused] at hdigest
  cases hdigest

end ProviderWork

end Obolos
