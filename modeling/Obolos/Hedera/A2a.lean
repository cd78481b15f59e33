import Obolos.Hedera.TokenBuyer
import Obolos.Js.Base64
import Obolos.Js.Dates

/-!
# Negotiation between agents

A buyer proposes repositories and a maximum, and the agent answers with an offer that is signed
with a private key (`handleA2ARequest`).  The agent keeps no offers: the token of an offer has all
of it, and `verifyA2AOffer` reads it back.  The buyer checks the offer without the key
(`validateSellerOffer`).

A request reads the clock up to three times, and it waits for a quote after the first reading:
`clock n` is the reading number `n`.
-/

namespace Obolos

namespace Hedera

namespace A2a

open Json
open DataService (isAccount)
open Hts (Packages UrlParts trustedBase)
open Runs.Evidence (validateRepos)

/-- The packages and the functions of the platform that the agent uses. -/
structure Platform extends Packages where
  /-- `createHmac('sha256', secret).update(body).digest()` -/
  hmac : JsString → JsString → List ℕ
  /-- `z.iso.datetime()` -/
  isUtcDatetime : JsString → Bool
  /-- The number of a JSON text. -/
  readNumber : JsString → Option Json
  /-- `buffer.toString('utf8')` -/
  ofBytes : List ℕ → JsString

/-- `A2AConfig` -/
structure A2AConfig where
  publicUrl : JsString
  resourceBaseUrl : JsString
  payTo : JsString
  offerSecret : JsString

/-- `proposalSchema` -/
structure Proposal where
  payer : JsString
  requestId : JsString
  providerId : JsString
  repos : List JsString
  maxAmountAtomic : ℚ
  mandateExpiresAt : JsString
  deriving DecidableEq

/-- `OfferPayload`; the version, the network and the asset are always the same. -/
structure OfferPayload where
  contextId : JsString
  requestId : JsString
  payer : JsString
  providerId : JsString
  repos : List JsString
  resourceUrl : JsString
  unitPriceAtomic : ℚ
  amountAtomic : ℚ
  maxAmountAtomic : ℚ
  mandateExpiresAt : JsString
  issuedAt : JsString
  expiresAt : JsString
  payTo : JsString
  deriving DecidableEq

/-- `A2AOffer` -/
structure A2AOffer where
  payload : OfferPayload
  offerId : JsString
  paymentRequestId : JsString
  offerToken : JsString
  deriving DecidableEq

/-- `Quote`; a number that is not finite is no safe integer. -/
structure Quote where
  providerId : JsString
  unitPriceAtomic : ℚ
  units : ℚ
  amountAtomic : ℚ
  network : JsString
  asset : JsString
  payTo : JsString
  expiresAt : JsString

/-- `Message`; its kind, role and extensions are always the same. -/
structure Message where
  messageId : JsString
  contextId : JsString
  data : Json

/-- `A2AResponse` -/
inductive Response
  | result (id : Json) (message : Message)
  | error (id : Json) (code : ℤ) (message : JsString)

variable (A : Platform)

/-! ### Schemas -/

/-- A text with a property. -/
def guarded (p : JsString → Bool) (s : JsString) : Option JsString := if p s then some s else none

/-- `z.string().regex(/^[A-Za-z0-9_-]{1,120}$/)` -/
def isIdentity (s : JsString) : Bool :=
  decide (1 ≤ s.length ∧ s.length ≤ 120) && s.all Base64.isUnit

/-- `z.number().int().positive().max(Number.MAX_SAFE_INTEGER)` -/
def readAtomic : Json → Option ℚ
  | .num q => if positiveAtomic q then some q else none
  | _ => none

/-- `z.array(z.string())` -/
def readTexts : Json → Option (List JsString)
  | .arr items => items.mapM asStr
  | _ => none

/-- `z.array(z.string()).min(1).max(3)` -/
def readRepos (x : Json) : Option (List JsString) :=
  (readTexts x).filter fun repos => decide (1 ≤ repos.length ∧ repos.length ≤ 3)

/-- `z.record(z.string(), z.unknown())` -/
def readRecord : Json → Option Json
  | .obj fields => some (.obj fields)
  | _ => none

/-- `z.number().int().nonnegative()` -/
def readCount : Json → Option ℚ
  | .num q => if Runs.isSafeInteger q && decide (0 ≤ q) then some q else none
  | _ => none

/-- `z.boolean()` -/
def readBool : Json → Option Bool
  | .bool b => some b
  | _ => none

/-- A field that may be left out. -/
def optionalField {α : Type} (read : Json → Option α) (key : String)
    (fields : List (JsString × Json)) : Except JsError (Option α) :=
  match get (js key) fields with
  | none => .ok none
  | some x =>
    match read x with
    | some a => .ok (some a)
    | none => .error .zod

/-- `proposalSchema.parse(value)` -/
def proposalSchema (value : Json) : Except JsError Proposal := do
  let fields ← strictFields ["action", "payer", "requestId", "providerId", "repos",
    "maxAmountAtomic", "mandateExpiresAt"] value
  literalField "propose" "action" fields
  let payer ← textField (guarded isAccount) "payer" fields
  let requestId ← textField (guarded isIdentity) "requestId" fields
  let providerId ← textField (guarded providerIds.contains) "providerId" fields
  let repos ← field readRepos "repos" fields
  let maxAmountAtomic ← field readAtomic "maxAmountAtomic" fields
  let mandateExpiresAt ← textField (guarded A.texts.isDatetime) "mandateExpiresAt" fields
  return Proposal.mk payer requestId providerId repos maxAmountAtomic mandateExpiresAt

/-- `acceptSchema.parse(value)`: the payer, the request and the token. -/
def acceptSchema (value : Json) : Except JsError (JsString × JsString × JsString) := do
  let fields ← strictFields ["action", "payer", "requestId", "offerToken"] value
  literalField "accept" "action" fields
  let payer ← textField (guarded isAccount) "payer" fields
  let requestId ← textField (guarded isIdentity) "requestId" fields
  let offerToken ← textField
    (guarded fun s => decide (1 ≤ s.length ∧ s.length ≤ 12000)) "offerToken" fields
  return (payer, requestId, offerToken)

/-- `z.literal(1)` -/
def readVersion : Json → Option Unit
  | .num q => if q = 1 then some () else none
  | _ => none

/-- `offerSchema.parse(value)` -/
def offerSchema (value : Json) : Except JsError OfferPayload := do
  let fields ← strictFields ["version", "contextId", "requestId", "payer", "providerId", "repos",
    "resourceUrl", "unitPriceAtomic", "amountAtomic", "maxAmountAtomic", "mandateExpiresAt",
    "issuedAt", "expiresAt", "network", "asset", "payTo"] value
  field readVersion "version" fields
  let contextId ← textField (guarded isIdentity) "contextId" fields
  let requestId ← textField (guarded isIdentity) "requestId" fields
  let payer ← textField (guarded isAccount) "payer" fields
  let providerId ← textField (guarded providerIds.contains) "providerId" fields
  let repos ← field readRepos "repos" fields
  let resourceUrl ← textField some "resourceUrl" fields
  let unitPriceAtomic ← field readAtomic "unitPriceAtomic" fields
  let amountAtomic ← field readAtomic "amountAtomic" fields
  let maxAmountAtomic ← field readAtomic "maxAmountAtomic" fields
  let mandateExpiresAt ← textField (guarded A.texts.isDatetime) "mandateExpiresAt" fields
  let issuedAt ← textField (guarded A.isUtcDatetime) "issuedAt" fields
  let expiresAt ← textField (guarded A.isUtcDatetime) "expiresAt" fields
  literalField "hedera:testnet" "network" fields
  literalField "0.0.0" "asset" fields
  let payTo ← textField (guarded isAccount) "payTo" fields
  return OfferPayload.mk contextId requestId payer providerId repos resourceUrl unitPriceAtomic
    amountAtomic maxAmountAtomic mandateExpiresAt issuedAt expiresAt payTo

/-! ### Offers -/

/-- The fields of a payload, in the order in which they are signed. -/
def OfferPayload.fields (payload : OfferPayload) : List (JsString × Json) :=
  [(js "version", .num 1), (js "contextId", .str payload.contextId),
    (js "requestId", .str payload.requestId), (js "payer", .str payload.payer),
    (js "providerId", .str payload.providerId), (js "repos", .arr (payload.repos.map .str)),
    (js "resourceUrl", .str payload.resourceUrl),
    (js "unitPriceAtomic", .num payload.unitPriceAtomic),
    (js "amountAtomic", .num payload.amountAtomic),
    (js "maxAmountAtomic", .num payload.maxAmountAtomic),
    (js "mandateExpiresAt", .str payload.mandateExpiresAt),
    (js "issuedAt", .str payload.issuedAt), (js "expiresAt", .str payload.expiresAt),
    (js "network", .str (js "hedera:testnet")), (js "asset", .str (js "0.0.0")),
    (js "payTo", .str payload.payTo)]

/-- `JSON.stringify(payload)` -/
def Platform.payloadText (payload : OfferPayload) : JsString :=
  stringify A.texts.host.numerals (.obj payload.fields)

/-- `{...payload, offerId, paymentRequestId, offerToken}` -/
def Platform.offer (payload : OfferPayload) (offerToken : JsString) : A2AOffer where
  payload := payload
  offerId := A.sha256 (A.payloadText payload)
  paymentRequestId := js "a2a:" ++ A.sha256 (A.payloadText payload)
  offerToken := offerToken

/-- The fields of an offer. -/
def A2AOffer.fields (offer : A2AOffer) : List (JsString × Json) :=
  offer.payload.fields ++ [(js "offerId", .str offer.offerId),
    (js "paymentRequestId", .str offer.paymentRequestId),
    (js "offerToken", .str offer.offerToken)]

/-- The body of the token of a payload. -/
def Platform.body (payload : OfferPayload) : JsString :=
  Base64.encode (A.payloadText payload).utf8

/-- `sign(payload, config)` -/
def sign (payload : OfferPayload) (config : A2AConfig) : A2AOffer :=
  A.offer payload (A.body payload ++ 46 ::
    Base64.encode (A.hmac config.offerSecret (A.body payload)))

/-- `validateConfig(config)` -/
def validateConfig (config : A2AConfig) : Except JsError Unit := do
  let _ ← trustedBase A.toPackages config.publicUrl
  let _ ← trustedBase A.toPackages config.resourceBaseUrl
  if isAccount config.payTo = false then .error .zod
  else if config.offerSecret.utf8Length < 32 then
    JsError.raise "Configure a private A2A_OFFER_SECRET with at least 32 bytes."
  else .ok ()

/-- `offerSchema.parse(JSON.parse(Buffer.from(body, 'base64url').toString('utf8')))` -/
def readPayload (body : JsString) : Except JsError OfferPayload :=
  match Json.parse A.readNumber (A.ofBytes (Base64.decode body)) with
  | some x => offerSchema A x
  | none => .error .other

/-- ``new URL(`evidence/${providerId}`, base).href``: the path of the base ends with a slash. -/
def resourceUrl (base : UrlParts) (providerId : JsString) : JsString :=
  base.href ++ js "evidence/" ++ providerId

/-- `/^[-_A-Za-z0-9]{43}$/` -/
def isSignature (s : JsString) : Bool := decide (s.length = 43) && s.all Base64.isUnit

/-- `Date.parse(text)` -/
def Platform.date (s : JsString) : Option ℤ := A.texts.host.dateParse s

/-- The times of an offer are not those of one that holds at `now`. -/
def badTimes (payload : OfferPayload) (now : ℤ) (allowExpired : Bool) : Bool :=
  let mandate := A.date payload.mandateExpiresAt
  match A.date payload.expiresAt, A.date payload.issuedAt with
  | some expiry, some issued =>
    decide (now + 1000 < issued ∨ expiry ≤ issued ∨ 60000 < expiry - issued) ||
      mandate.any (fun m => decide (m < expiry)) ||
      (!allowExpired && (decide (expiry ≤ now) || mandate.any fun m => decide (m ≤ now)))
  | _, _ => true

/-- `verifyA2AOffer(token, config, allowExpired)` at the time `now` -/
def verifyA2AOffer (config : A2AConfig) (now : ℤ) (allowExpired : Bool) (token : JsString) :
    Except JsError A2AOffer := do
  validateConfig A config
  if 12000 < token.length then JsError.raise "Invalid offer."
  else
    match token.splitOn 46 with
    | [body, signature] =>
      if body = [] ∨ body.all Base64.isUnit = false ∨ isSignature signature = false then
        JsError.raise "Invalid offer."
      else if A.hmac config.offerSecret body ≠ Base64.decode signature then
        JsError.raise "Invalid signed offer."
      else do
        let payload ← readPayload A body
        let _ ← validateRepos A.texts (.arr (payload.repos.map .str))
        if badTimes A payload now allowExpired then
          JsError.raise "Signed offer expired or has invalid bounds."
        else do
          let base ← trustedBase A.toPackages config.resourceBaseUrl
          if payload.payTo ≠ config.payTo ∨ payload.payer = config.payTo ∨
              payload.resourceUrl ≠ resourceUrl base payload.providerId ∨
              payload.amountAtomic ≠ payload.unitPriceAtomic * payload.repos.length ∨
              payload.maxAmountAtomic < payload.amountAtomic then
            JsError.raise "Offer violates exact resource or mandate."
          else return A.offer payload token
    | _ => JsError.raise "Invalid offer."

/-- The value has other fields than the offer. -/
def differs (value : Json) (offer : A2AOffer) : Bool :=
  offer.fields.any fun field =>
    decide ((value.asObj.bind (get field.1)).map (stringify A.texts.host.numerals) ≠
      some (stringify A.texts.host.numerals field.2))

/-- `Date.parse(expiresAt) <= now || …`: the times of an offer for this proposal. -/
def lateTimes (payload : OfferPayload) (p : Proposal) (now : ℤ) : Bool :=
  let expiry := A.date payload.expiresAt
  let issued := A.date payload.issuedAt
  let mandate := A.date p.mandateExpiresAt
  expiry.any (fun e => decide (e ≤ now)) ||
    expiry.any (fun e => mandate.any fun m => decide (m < e)) ||
    issued.any (fun i => decide (now + 1000 < i)) ||
    expiry.any (fun e => issued.any fun i => decide (e ≤ i)) ||
    expiry.any (fun e => issued.any fun i => decide (60000 < e - i))

/-- `validateSellerOffer(value, proposal, resourceBaseUrl, payTo)` at the time `now` -/
def validateSellerOffer (now : ℤ) (value proposal : Json) (resourceBaseUrl payTo : JsString) :
    Except JsError A2AOffer := do
  let p ← proposalSchema A proposal
  match (value.prop "offerToken").bind asStr with
  | none => JsError.raise "Invalid seller offer."
  | some token =>
    if 12000 < token.length then JsError.raise "Invalid seller offer."
    else
      match token.splitOn 46 with
      | [body, signature] =>
        if body = [] ∨ isSignature signature = false then
          JsError.raise "Invalid seller offer token."
        else do
          let payload ← readPayload A body
          let _ ← validateRepos A.texts (.arr (payload.repos.map .str))
          let offer := A.offer payload token
          if differs A value offer ∨ payload.requestId ≠ p.requestId ∨ payload.payer ≠ p.payer ∨
              payload.providerId ≠ p.providerId ∨ payload.repos ≠ p.repos ∨
              payload.maxAmountAtomic ≠ p.maxAmountAtomic ∨
              payload.mandateExpiresAt ≠ p.mandateExpiresAt ∨ payload.payTo ≠ payTo ∨
              payload.payer = payTo then
            JsError.raise "Seller offer differs from approved exact purchase."
          else do
            let base ← trustedBase A.toPackages resourceBaseUrl
            if payload.resourceUrl ≠ resourceUrl base p.providerId ∨
                payload.amountAtomic ≠ payload.unitPriceAtomic * p.repos.length ∨
                p.maxAmountAtomic < payload.amountAtomic ∨ lateTimes A payload p now then
              JsError.raise "Seller offer differs from approved exact purchase."
            else return offer
      | _ => JsError.raise "Invalid seller offer token."

/-! ### Requests -/

/-- What is read of `params` of a message. -/
structure SendParams where
  contextId : Option JsString
  taskId : Option JsString
  acceptedOutputModes : Option (List JsString)
  data : Json

/-- The one part of a message. -/
def readPart : Json → Option Json
  | .arr [part] =>
    match strictFields ["kind", "data"] part with
    | .ok fields =>
      if (get (js "kind") fields).bind asStr = some (js "data") then
        (get (js "data") fields).bind readRecord
      else none
    | .error _ => none
  | _ => none

/-- The schema of `configuration`: the accepted output modes. -/
def configurationSchema (value : Json) : Except JsError (Option (List JsString)) := do
  let fields ← strictFields ["acceptedOutputModes", "blocking", "historyLength"] value
  let modes ← optionalField readTexts "acceptedOutputModes" fields
  let _ ← optionalField readBool "blocking" fields
  let _ ← optionalField readCount "historyLength" fields
  return modes

/-- The schema of `params` of `message/send`. -/
def paramsSchema (value : Json) : Except JsError SendParams := do
  let params ← strictFields ["message", "configuration", "metadata"] value
  let message ← field some "message" params
  let fields ← strictFields ["kind", "role", "messageId", "contextId", "taskId", "parts",
    "extensions", "metadata"] message
  literalField "message" "kind" fields
  literalField "user" "role" fields
  let _ ← textField (guarded fun s => decide (1 ≤ s.length ∧ s.length ≤ 180)) "messageId" fields
  let contextId ← optionalField (fun x => x.asStr.bind (guarded isIdentity)) "contextId" fields
  let taskId ← optionalField asStr "taskId" fields
  let data ← field readPart "parts" fields
  let _ ← optionalField readTexts "extensions" fields
  let _ ← optionalField readRecord "metadata" fields
  let modes ← optionalField some "configuration" params
  let acceptedOutputModes ← match modes with
    | some configuration => configurationSchema configuration
    | none => .ok none
  let _ ← optionalField readRecord "metadata" params
  return { contextId, taskId, acceptedOutputModes, data }

/-- The schema of `params` of `tasks/get` and `tasks/cancel`. -/
def taskSchema (value : Json) : Except JsError Unit := do
  let fields ← strictFields ["id", "historyLength", "metadata"] value
  let _ ← textField (guarded fun s => decide (1 ≤ s.length)) "id" fields
  let _ ← optionalField readCount "historyLength" fields
  let _ ← optionalField readRecord "metadata" fields
  return ()

/-- `message(contextId, data)` -/
def message (contextId : JsString) (data : List (JsString × Json)) : Message where
  messageId := js "response-" ++
    (A.sha256 (stringify A.texts.host.numerals (.obj data))).take 32
  contextId := contextId
  data := .obj data

/-- How an accepted offer is carried out. -/
def instructions : JsString :=
  js ("Execute the exact resource privately through purchaseHederaData; " ++
    "retain the offer-linked receipt and validated evidence.")

/-- The data of an accepted offer. -/
def A2AOffer.accepted (offer : A2AOffer) : List (JsString × Json) :=
  (js "action", .str (js "accepted")) :: offer.fields ++
    [(js "paymentStatus", .str (js "required")),
      (js "instructions", .str instructions)]

/-- The data of an offer. -/
def A2AOffer.offered (offer : A2AOffer) : List (JsString × Json) :=
  (js "action", .str (js "offer")) :: offer.fields ++
    [(js "paymentStatus", .str (js "unpaid"))]

/-- The data of a counteroffer. -/
def Quote.counteroffer (q : Quote) : List (JsString × Json) :=
  [(js "action", .str (js "counteroffer")), (js "providerId", .str q.providerId),
    (js "units", .num q.units), (js "unitPriceAtomic", .num q.unitPriceAtomic),
    (js "amountAtomic", .num q.amountAtomic), (js "requiresNewMandate", .bool true)]

/-- An accepted offer is repeated. -/
def accept (config : A2AConfig) (now : ℤ) (params : SendParams) : Except JsError Message := do
  let (payer, requestId, token) ← acceptSchema params.data
  let offer ← verifyA2AOffer A config now false token
  if offer.payload.payer ≠ payer ∨ offer.payload.requestId ≠ requestId ∨
      params.contextId ≠ some offer.payload.contextId then
    JsError.raise "Identity mismatch"
  else return message A offer.payload.contextId offer.accepted

/-- The quote is not one for this proposal, or has expired at `now`. -/
def badQuote (config : A2AConfig) (proposal : Proposal) (repos : List JsString) (q : Quote)
    (now : ℤ) : Bool :=
  decide (q.providerId ≠ proposal.providerId ∨ q.units ≠ repos.length ∨
    q.amountAtomic ≠ q.unitPriceAtomic * repos.length) ||
    !positiveAtomic q.unitPriceAtomic || !positiveAtomic q.amountAtomic ||
    decide (q.network ≠ js "hedera:testnet" ∨ q.asset ≠ js "HBAR" ∨ q.payTo ≠ config.payTo) ||
    !(A.date q.expiresAt).any fun expiry => decide (now < expiry)

/-- The context of a proposal. -/
def contextOf (proposal : Proposal) : JsString :=
  js "commerce-" ++ (A.sha256 (stringify A.texts.host.numerals
    (.obj [(js "payer", .str proposal.payer), (js "requestId", .str proposal.requestId)]))).take 40

/-- `new Date(Math.min(now + 60000, mandate, Date.parse(q.expiresAt)))`; a mandate that is no date
makes it an invalid one. -/
def expiryText (proposal : Proposal) (q : Quote) (now : ℤ) : Except JsError JsString :=
  match A.date proposal.mandateExpiresAt, A.date q.expiresAt with
  | some mandate, some expiry => Date.toISOString (min (min (now + 60000) mandate) expiry)
  | _, _ => .error .other

/-- The payload of the offer for a proposal. -/
def offerPayload (config : A2AConfig) (proposal : Proposal) (repos : List JsString) (q : Quote)
    (now : ℤ) : Except JsError OfferPayload := do
  let base ← trustedBase A.toPackages config.resourceBaseUrl
  let issuedAt ← Date.toISOString now
  let expiresAt ← expiryText A proposal q now
  return {
    contextId := contextOf A proposal
    requestId := proposal.requestId
    payer := proposal.payer
    providerId := proposal.providerId
    repos := repos
    resourceUrl := resourceUrl base proposal.providerId
    unitPriceAtomic := q.unitPriceAtomic
    amountAtomic := q.amountAtomic
    maxAmountAtomic := proposal.maxAmountAtomic
    mandateExpiresAt := proposal.mandateExpiresAt
    issuedAt := issuedAt
    expiresAt := expiresAt
    payTo := config.payTo }

/-- The quote for a proposal, or an exception. -/
abbrev A2AQuote := JsString → List JsString → Except JsError Quote

/-- A proposal is answered with an offer or a counteroffer. -/
def propose (config : A2AConfig) (quote : A2AQuote) (clock : ℕ → ℤ) (params : SendParams) :
    Except JsError Message := do
  let proposal ← proposalSchema A params.data
  let repos ← validateRepos A.texts (.arr (proposal.repos.map .str))
  if (A.date proposal.mandateExpiresAt).any (fun m => decide (m ≤ clock 0)) ∨
      proposal.payer = config.payTo then
    JsError.raise "Expired mandate"
  else do
    let q ← quote proposal.providerId repos
    if badQuote A config proposal repos q (clock 1) then JsError.raise "Invalid quote"
    else if params.contextId.any fun id => decide (id ≠ contextOf A proposal) then
      JsError.raise "Identity mismatch"
    else if proposal.maxAmountAtomic < q.amountAtomic then
      return message A (contextOf A proposal) q.counteroffer
    else do
      let payload ← offerPayload A config proposal repos q (clock 2)
      return message A (contextOf A proposal) (sign A payload config).offered

/-- The `try` block of `handleA2ARequest`. -/
def sendMessage (config : A2AConfig) (quote : A2AQuote) (clock : ℕ → ℤ) (id : Json)
    (value : Json) : Except JsError Response := do
  validateConfig A config
  let params ← paramsSchema value
  if params.taskId.any fun taskId => decide (taskId ≠ []) then
    return .error id (-32001) (js "Task not found")
  else if params.acceptedOutputModes.any fun modes => !modes.contains (js "application/json") then
    return .error id (-32005) (js "Unsupported content type")
  else if (params.data.prop "action").bind asStr = some (js "accept") then
    return .result id (← accept A config (clock 0) params)
  else return .result id (← propose A config quote clock params)

/-- The identifier of a request is a text, a safe integer or `null`. -/
def isRequestId : Json → Bool
  | .str s => decide (s.length ≤ 180)
  | .num q => Runs.isSafeInteger q
  | .null => true
  | _ => false

/-- `handleA2ARequest(input, config, quote)` -/
def handleA2ARequest (config : A2AConfig) (quote : A2AQuote) (clock : ℕ → ℤ) (input : Json) :
    Response :=
  match input.prop "jsonrpc", input.prop "id", (input.prop "method").bind asStr with
  | some (.str version), some id, some method =>
    if version ≠ js "2.0" ∨ isRequestId id = false then
      .error .null (-32600) (js "Invalid Request")
    else if method = js "tasks/get" ∨ method = js "tasks/cancel" then
      match ((input.prop "params").map taskSchema).getD (.error .zod) with
      | .ok () => .error id (-32001)
          (js "Task not found. This agent returns Messages without creating Tasks.")
      | .error _ => .error id (-32602) (js "Invalid params")
    else if method ≠ js "message/send" then .error id (-32601) (js "Method not found")
    else
      match ((input.prop "params").map (sendMessage A config quote clock id)).getD
          (.error .zod) with
      | .ok response => response
      | .error _ => .error id (-32602)
          (js "Invalid params, expired authorization or unavailable valid service quote")
  | _, _, _ => .error .null (-32600) (js "Invalid Request")

end A2a

end Hedera

end Obolos
