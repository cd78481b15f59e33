import Obolos.Runs.MetricVerifier

/-!
# What the routes of the broker accept

The schemas of the requests to `/data` and `/verify`, and the requests that the engine sends.
`verifySchema_json` : of the request for a verification the broker can only refuse its title.
-/

namespace Obolos

namespace Broker

open Json Runs Evidence
open Obolos.Circle (isAlphanumeric)

/-! ### Schemas -/

/-- `id` -/
def isId (s : JsString) : Bool :=
  decide (1 ≤ s.length ∧ s.length ≤ 128) && s.all fun c => isAlphanumeric c || c == 95 || c == 45

/-- `requestId` -/
def isRequestId (s : JsString) : Bool :=
  decide (1 ≤ s.length ∧ s.length ≤ 180) &&
    s.all fun c => isAlphanumeric c || c == 95 || c == 58 || c == 45

/-- Whether an object has no other keys than these. -/
def onlyKeys (keys : List String) (fields : List (JsString × Json)) : Bool :=
  fields.all fun field => (keys.map js).contains field.1

/-- An array with a property. -/
def arrayWith (p : List Json → Bool) : Option Json → Bool
  | some (.arr items) => p items
  | _ => false

/-- `atomic.refine(v => v > 0)` -/
def isPositive : Option Json → Bool
  | some (.num q) => isCount (some (.num q)) && decide (0 < q)
  | _ => false

/-- `z.boolean()` -/
def isBoolean : Option Json → Bool
  | some (.bool _) => true
  | _ => false

/-- `z.object({label, passed, detail})` -/
def checkSchema : Json → Bool
  | .obj fields =>
    textWith (·.length ≤ 200) (get (js "label") fields) &&
      isBoolean (get (js "passed") fields) && textWith (·.length ≤ 1000) (get (js "detail") fields)
  | _ => false

/-- What the schemas use: the functions on texts, and the schema of `market`, which the engine does
not send. -/
structure Schemas extends Texts where
  isMarket : Json → Bool

variable (S : Schemas)

/-- `reportSchema` -/
def reportSchema : Json → Bool
  | .obj fields =>
    onlyKeys ["title", "summary", "recommendation", "evidence", "generatedBy", "createdAt", "checks",
        "verified"] fields &&
      textWith (·.length ≤ 300) (get (js "title") fields) &&
      textWith (fun s => 1 ≤ s.length && s.length ≤ 12000) (get (js "summary") fields) &&
      textWith (·.length ≤ 4000) (get (js "recommendation") fields) &&
      arrayWith (evidenceArray S.toTexts) (get (js "evidence") fields) &&
      textWith ([js "template", js "model"].contains ·) (get (js "generatedBy") fields) &&
      textWith S.isDatetime (get (js "createdAt") fields) &&
      arrayWith (fun items => items.length ≤ 30 && items.all checkSchema) (get (js "checks") fields) &&
      isBoolean (get (js "verified") fields)
  | _ => false

/-- `dataSchema` -/
def dataSchema : Json → Bool
  | .obj fields =>
    onlyKeys ["runId", "requestId", "mandateExpiresAt", "repos", "providerId", "maxAmountAtomic",
        "unitPriceAtomic"] fields &&
      textWith isId (get (js "runId") fields) &&
      textWith isRequestId (get (js "requestId") fields) &&
      textWith S.isDatetime (get (js "mandateExpiresAt") fields) &&
      arrayWith (fun items => 1 ≤ items.length && items.length ≤ 3 &&
        items.all fun x => textWith isBrokerRepo (some x)) (get (js "repos") fields) &&
      textWith isId (get (js "providerId") fields) &&
      isCount (get (js "maxAmountAtomic") fields) && isPositive (get (js "unitPriceAtomic") fields)
  | _ => false

/-- `verifySchema` -/
def verifySchema : Json → Bool
  | .obj fields =>
    onlyKeys ["runId", "requestId", "mandateExpiresAt", "maxAmountAtomic", "report", "market"]
        fields &&
      textWith isId (get (js "runId") fields) &&
      textWith isRequestId (get (js "requestId") fields) &&
      textWith S.isDatetime (get (js "mandateExpiresAt") fields) &&
      isCount (get (js "maxAmountAtomic") fields) &&
      (get (js "report") fields).any (reportSchema S) &&
      (get (js "market") fields).all S.isMarket
  | _ => false

/-! ### Requests -/

/-- A check as an object. -/
def checkJson (c : Check) : Json :=
  .obj [(js "label", .str c.label), (js "passed", .bool c.passed), (js "detail", .str c.detail)]

/-- The report of the engine as an object, with the records of evidence as the broker sent them. -/
def reportJson (records : List Json) (r : Report) : Json :=
  .obj [(js "title", .str r.title), (js "summary", .str r.summary),
    (js "recommendation", .str recommendation), (js "evidence", .arr records),
    (js "generatedBy", .str (js "model")), (js "createdAt", .str r.createdAt),
    (js "checks", .arr (r.checks.map checkJson)), (js "verified", .bool r.verified)]

/-- The body of the request to `/data`. -/
def dataJson (p : DataPurchase) : Json :=
  .obj [(js "runId", .str p.runId), (js "requestId", .str p.requestId),
    (js "repos", .arr (p.repos.map .str)), (js "providerId", .str p.providerId),
    (js "maxAmountAtomic", .num p.maxAmountAtomic), (js "unitPriceAtomic", .num p.unitPriceAtomic),
    (js "mandateExpiresAt", .str p.mandateExpiresAt)]

/-- The body of the request to `/verify`. -/
def verifyJson (records : List Json) (p : VerificationPurchase) : Json :=
  .obj [(js "runId", .str p.runId), (js "requestId", .str p.requestId),
    (js "maxAmountAtomic", .num p.maxAmountAtomic), (js "report", reportJson records p.report),
    (js "mandateExpiresAt", .str p.mandateExpiresAt)]

/-! ### What can be refused -/

variable {S} {records : List Json}

theorem isRequestId_verify {id : JsString} (h : isId id = true) :
    isRequestId (id ++ js ":verify") = true := by
  simp only [isId, Bool.and_eq_true, decide_eq_true_eq, List.all_eq_true] at h
  have hlength : (js ":verify").length = 7 := rfl
  simp only [isRequestId, List.length_append, hlength, Bool.and_eq_true, decide_eq_true_eq,
    List.all_eq_true]
  refine ⟨by omega, fun c hc => ?_⟩
  rcases List.mem_append.1 hc with hc | hc
  · have hunit := h.2 c hc
    simp only [Bool.or_eq_true] at hunit ⊢
    rcases hunit with (hunit | hunit) | hunit
    · exact Or.inl (Or.inl (Or.inl hunit))
    · exact Or.inl (Or.inl (Or.inr hunit))
    · exact Or.inr hunit
  · have hunits : (js ":verify").all
        (fun c => isAlphanumeric c || c == 95 || c == 58 || c == 45) = true := by decide +kernel
    exact List.all_eq_true.1 hunits c hc

/-- The parts of a report that the broker looks at. -/
structure Drafted (S : Schemas) (r : Report) : Prop where
  summary : 1 ≤ r.summary.length ∧ r.summary.length ≤ 12000
  createdAt : S.isDatetime r.createdAt = true
  checks : r.checks = []

/-- A report is refused only for its title. -/
theorem reportSchema_json {r : Report} (h : Drafted S r)
    (hrecords : evidenceArray S.toTexts records = true) :
    reportSchema S (reportJson records r) = true ↔ r.title.length ≤ 300 := by
  have hrecommendation : recommendation.length ≤ 4000 := by decide +kernel
  simp only [reportSchema, reportJson, Json.get, js_inj, String.reduceEq, ↓reduceIte, h.checks]
  simp [onlyKeys, textWith, arrayWith, isBoolean, hrecords, h.summary, h.createdAt, hrecommendation]

/-- A request for a verification is refused only for its title. -/
theorem verifySchema_json {p : VerificationPurchase} (hid : isId p.runId = true)
    (hrequest : p.requestId = p.runId ++ js ":verify")
    (hdate : S.isDatetime p.mandateExpiresAt = true)
    (hamount : isCount (some (.num p.maxAmountAtomic)) = true) (hreport : Drafted S p.report)
    (hrecords : evidenceArray S.toTexts records = true) :
    verifySchema S (verifyJson records p) = true ↔ p.report.title.length ≤ 300 := by
  rw [← reportSchema_json hreport hrecords]
  simp only [verifySchema, verifyJson, Json.get, js_inj, String.reduceEq, ↓reduceIte]
  simp [onlyKeys, textWith, hid, hrequest, isRequestId_verify hid, hdate, hamount]

end Broker

end Obolos
