import Obolos.Crash.Reach
import Obolos.Crash.Table
import Obolos.Runs.Evidence

/-!
# The public data service

`publicDataRequest` sells the metadata of repositories.  A request that pays carries a signed native
transaction, and it may carry an offer that was negotiated before.  The service verifies both,
reads the metadata, and inserts a row for the transaction; only who inserts the row settles the
payment.

The table has three unique columns: the transaction, the offer, and the payer with the request of
the offer.  `INSERT … ON CONFLICT DO NOTHING` claims all of them at once (`Payments.claim`).
-/

namespace Obolos

namespace DataService

open Runs.Evidence (Texts validateRepos)

/-! ### Prices and offers -/

/-- A price list. -/
structure PriceBook where
  standard : ℤ
  economy : ℤ

/-- The price of a provider; `none` for an unknown one. -/
def PriceBook.price (book : PriceBook) (providerId : JsString) : Option ℤ :=
  if providerId = js "repo-standard" then some book.standard
  else if providerId = js "repo-economy" then some book.economy
  else none

/-- What is read of a quote. -/
structure Quote where
  providerId : JsString
  unitPriceAtomic : ℤ
  units : ℕ
  amountAtomic : ℤ
  payTo : JsString

/-- `Number.isSafeInteger` -/
def isSafeInteger (n : ℤ) : Bool := decide (-2 ^ 53 < n ∧ n < 2 ^ 53)

/-- `createQuote(providerId, repos, prices, payTo)` for repositories that were validated. -/
def createQuote (providerId : JsString) (repos : List JsString) (prices : PriceBook)
    (payTo : JsString) : Except JsError Quote :=
  match prices.price providerId with
  | none => JsError.raise "Unknown provider."
  | some unitPriceAtomic =>
    let amountAtomic := unitPriceAtomic * repos.length
    if !isSafeInteger unitPriceAtomic || decide (unitPriceAtomic ≤ 0) ||
        !isSafeInteger amountAtomic then
      JsError.raise "Invalid service price."
    else .ok ⟨providerId, unitPriceAtomic, repos.length, amountAtomic, payTo⟩

/-- What is read of an offer. -/
structure A2AOffer where
  offerId : JsString
  paymentRequestId : JsString
  requestId : JsString
  payer : JsString
  providerId : JsString
  repos : List JsString
  resourceUrl : JsString
  unitPriceAtomic : ℤ
  amountAtomic : ℤ
  mandateExpiresAt : JsString
  expiresAt : JsString
  payTo : JsString
  deriving DecidableEq

/-- `${offer.payer}:${offer.requestId}` -/
def A2AOffer.requestKey (offer : A2AOffer) : JsString := offer.payer ++ js ":" ++ offer.requestId

/-! ### Payments -/

/-- The terms of a payment that are compared; a field may be `undefined`. -/
structure Terms where
  scheme : Option JsString
  network : Option JsString
  asset : Option JsString
  amount : Option JsString
  payTo : Option JsString
  maxTimeoutSeconds : Option ℚ
  feePayer : Option JsString
  deriving DecidableEq

/-- What is read of a decoded payment signature. -/
structure Payload where
  x402Version : Option ℚ
  resourceUrl : Option JsString
  accepted : Option Terms
  transaction : Option JsString
  deriving DecidableEq

/-- The answer of `verifyPayment`. -/
structure Verified where
  isValid : Bool
  payer : Option JsString
  deriving DecidableEq

/-- The answer of `settlePayment`. -/
structure Settlement where
  success : Bool
  transaction : Option JsString
  network : Option JsString
  payer : Option JsString
  deriving DecidableEq

/-- `[1-9]\d*` before the rest of a text. -/
def isPositiveNumeral (s : JsString) : Bool :=
  (s.take 1).any (· != 48) && decide (1 ≤ s.length) && s.all JsString.isDigit

/-- `/^0\.0\.[1-9]\d*$/` -/
def isAccount (s : JsString) : Bool := s.take 4 == js "0.0." && isPositiveNumeral (s.drop 4)

/-- `id.replace(/\.(\d+)$/, '-$1')` -/
def dashFraction (id : JsString) : JsString :=
  let digits := id.reverse.takeWhile JsString.isDigit
  match id.reverse.dropWhile JsString.isDigit with
  | 46 :: front => if digits = [] then id else front.reverse ++ js "-" ++ digits.reverse
  | _ => id

/-- `normalizeTransactionId(id)` -/
def normalizeTransactionId (id : JsString) : JsString :=
  dashFraction (match id.dropWhile (· != 64) with
    | [] => id
    | _ :: rest => id.takeWhile (· != 64) ++ js "-" ++ rest)

/-- `/^0\.0\.[1-9]\d*-\d{10,}-\d{1,9}$/` -/
def isNormalized (s : JsString) : Bool :=
  let account := s.takeWhile (· != 45)
  let times := (s.dropWhile (· != 45)).drop 1
  let seconds := times.takeWhile (· != 45)
  let nanos := (times.dropWhile (· != 45)).drop 1
  isAccount account && decide (10 ≤ seconds.length) && seconds.all JsString.isDigit &&
    decide (1 ≤ nanos.length ∧ nanos.length ≤ 9) && nanos.all JsString.isDigit

/-- `validateSettlement(value, payer)` -/
def validateSettlement (settlement : Settlement) (payer : JsString) : Except JsError Unit :=
  if settlement.success = false ∨ settlement.network ≠ some (js "hedera:testnet") ∨
      settlement.payer ≠ some payer ∨
      settlement.transaction.all (fun id => !isNormalized (normalizeTransactionId id)) = true then
    JsError.raise "Payment settlement is unproven; reconcile before retrying."
  else .ok ()

/-! ### The table -/

/-- `platform_service_payments.state` -/
inductive PaymentState
  | pending
  | settled
  deriving DecidableEq

/-- A row of `platform_service_payments`. -/
structure PaymentRow where
  transactionId : JsString
  providerId : JsString
  repos : List JsString
  amountAtomic : ℤ
  asset : JsString
  offerId : Option JsString
  offerRequestKey : Option JsString
  state : PaymentState
  settlement : Option Settlement
  evidence : Option (List Json)

/-- `platform_service_payments` -/
abbrev Payments := Table PaymentRow JsString PaymentRow.transactionId

/-- Whether another row has the same value in a unique column that may be `NULL`. -/
def Payments.taken (t : Payments) (u : PaymentRow → Option JsString) (row : PaymentRow) : Bool :=
  t.rows.any fun r => (u r).isSome && u r == u row

/-- Whether the row conflicts with one of the table. -/
def Payments.conflict (t : Payments) (row : PaymentRow) : Bool :=
  (t.get row.transactionId).isSome || t.taken PaymentRow.offerId row ||
    t.taken PaymentRow.offerRequestKey row

/-- The row, settled. -/
def PaymentRow.settle (row : PaymentRow) (settlement : Settlement) (evidence : List Json) :
    PaymentRow :=
  { row with state := .settled, settlement := some settlement, evidence := some evidence }

/-- `UPDATE … SET state='settled' … WHERE transaction_id=… AND state='pending'` -/
def Payments.record (t : Payments) (id : JsString) (settlement : Settlement)
    (evidence : List Json) : Payments :=
  match t.get id with
  | none => t
  | some row => if row.state = .pending then t.replace (row.settle settlement evidence) else t

/-! ### The world -/

/-- What `verifyPayment` was asked and answered. -/
structure Payment where
  payload : Payload
  requirements : Terms
  verified : Verified
  deriving DecidableEq

/-- What a request was answered: the offer that was verified, the payment that was verified, and
the readings of the clock since its row was inserted. -/
structure Seen where
  offer : Option A2AOffer
  payment : Option Payment
  times : List ℤ
  deriving DecidableEq

/-- Nothing yet. -/
def Seen.none : Seen := ⟨.none, .none, []⟩

/-- Who inserted the row of a transaction, and what it had been answered before. -/
structure Claim (ι : Type) where
  process : ι
  seen : Seen

/-- A call of `settlePayment`, who made it, and what it had been answered before. -/
structure Call (ι : Type) where
  process : ι
  payload : Payload
  requirements : Terms
  seen : Seen

/-- The table, who inserted its rows, the settlements that were started, and what every request was
answered so far. -/
structure World (ι : Type) where
  payments : Payments
  claims : JsString → Option (Claim ι)
  calls : List (Call ι)
  seen : ι → Seen

variable {ι : Type}

/-- No payments. -/
def World.empty : World ι := ⟨Table.empty, fun _ => none, [], fun _ => Seen.none⟩

section

variable [DecidableEq ι]

/-- A request was answered something. -/
def World.saw (w : World ι) (i : ι) (seen : Seen) : World ι :=
  { w with seen := Function.update w.seen i seen }

/-- A request inserted a row; its readings of the clock start over. -/
def World.insert (w : World ι) (i : ι) (row : PaymentRow) : World ι :=
  { w with
    payments := w.payments.insert row
    claims := fun id => if id = row.transactionId then some ⟨i, w.seen i⟩ else w.claims id
    seen := Function.update w.seen i { w.seen i with times := [] } }

end

/-! ### The request -/

/-- What the code awaits. -/
inductive Effect
  | tokenConfig
  | prices
  | verifyOffer (token : JsString)
  | buildPaymentRequirements (payTo asset amount : JsString)
  | verifyPayment (payload : Payload) (requirements : Terms)
  | fetchRepoEvidence (repos : List JsString)
  | now
  | claim (row : PaymentRow)
  | settlePayment (payload : Payload) (requirements : Terms)
  | record (id : JsString) (settlement : Settlement) (evidence : List Json)

/-- The HTS terms of the operator. -/
structure Token where
  asset : JsString
  payTo : JsString
  unitPriceAtomic : ℤ

/-- What the code is answered. -/
@[reducible] def Answer : Effect → Type
  | .tokenConfig => Option Token
  | .prices => PriceBook
  | .verifyOffer _ => A2AOffer
  | .buildPaymentRequirements _ _ _ => Terms
  | .verifyPayment _ _ => Verified
  | .fetchRepoEvidence _ => List Json
  | .now => ℤ
  | .claim _ => Bool
  | .settlePayment _ _ => Settlement
  | .record _ _ _ => Unit

/-- The code of the service. -/
abbrev Exec := Prog Effect Answer JsError

/-- One effect. -/
def perform (o : Effect) : Exec (Answer o) := Prog.await o

/-- What a request is answered. -/
inductive Response
  | refused (message : JsString) (status : ℕ)
  | challenge (requirements : Terms)
  | changed (requirements : Terms)
  | unsettled (message : JsString) (settlement : Settlement)
  | sold (evidence : List Json) (quote : Quote) (settlement : Settlement)

/-- `return json({error: message}, status)` -/
def refuse (message : String) (status : ℕ) : Exec Response := pure (.refused (js message) status)

/-- The environment of the service, and the packages it decodes payments with. -/
structure Service where
  texts : Texts
  appOrigin : JsString
  payTo : Option JsString
  decodePaymentSignatureHeader : JsString → Option Payload
  nativeId : JsString → Except JsError (Option JsString)

/-- What is read of a request for paid evidence. -/
structure Request where
  hts : Bool
  providerId : JsString
  body : Json
  idempotencyKey : Option JsString
  signature : Option JsString

variable (P : Service)

/-- `Transaction.fromBytes(…).transactionId?.toString()` of a payload that has a transaction. -/
def Service.native (payload : Payload) : Option (Except JsError (Option JsString)) :=
  payload.transaction.map P.nativeId

/-- `Date.parse(text) <= Date.now()` -/
def Service.expired (text : JsString) (now : ℤ) : Bool :=
  (P.texts.host.dateParse text).any fun t => decide (t ≤ now)

/-- Whether the authority of an offer has expired. -/
def authority : Option A2AOffer → Exec Bool
  | none => pure false
  | some offer => do
    let first ← perform .now
    if P.expired offer.expiresAt first then pure true
    else do
      let second ← perform .now
      pure (P.expired offer.mandateExpiresAt second)

/-- Settle the payment that was claimed, and record it. -/
def settleClaimed (payload : Payload) (requirements : Terms) (quote : Quote) (payer : JsString)
    (evidence : List Json) (id : JsString) : Exec Response := do
  let settlement ← perform (.settlePayment payload requirements)
  if settlement.success = false ∨ settlement.transaction.all List.isEmpty = true ∨
      settlement.network ≠ some (js "hedera:testnet") then
    pure (.unsettled (js "Settlement failed or uncertain; reconcile before retrying.") settlement)
  else match validateSettlement settlement payer with
    | .error _ => pure (.unsettled
        (js "Settlement identity is unproven; reconcile the reserved original transaction before retrying.")
        settlement)
    | .ok () =>
      if settlement.transaction.map normalizeTransactionId ≠ some (normalizeTransactionId id) then
        pure (.unsettled
          (js "Settlement identity is unproven; reconcile the reserved original transaction before retrying.")
          settlement)
      else do
        perform (.record id settlement evidence)
        pure (.sold evidence quote settlement)

/-- The row of a claim. -/
def pendingRow (token : Option Token) (repos : List JsString) (quote : Quote) (id : JsString)
    (offer : Option A2AOffer) : PaymentRow where
  transactionId := id
  providerId := quote.providerId
  repos := repos
  amountAtomic := quote.amountAtomic
  asset := (token.map Token.asset).getD (js "0.0.0")
  offerId := offer.map A2AOffer.offerId
  offerRequestKey := offer.map A2AOffer.requestKey
  state := .pending
  settlement := none
  evidence := none

/-- Claim the transaction of a payment that was verified. -/
def claimPayment (token : Option Token) (repos : List JsString) (quote : Quote)
    (offer : Option A2AOffer) (payload : Payload) (requirements : Terms) (payer : JsString)
    (evidence : List Json) (id : JsString) : Exec Response := do
  let early ← authority P offer
  if early then refuse "A2A spending authority expired before settlement." 409
  else do
    let claimed ← perform (.claim (pendingRow token repos quote id offer))
    if claimed = false then
      refuse "Payment already submitted; reconcile the existing transaction." 409
    else do
      let late ← authority P offer
      if late then refuse "A2A authority expired. Reserved intent requires reconciliation." 409
      else settleClaimed payload requirements quote payer evidence id

/-- Verify a payment whose terms are those of the quote. -/
def verifiedPayment (token : Option Token) (repos : List JsString) (quote : Quote)
    (offer : Option A2AOffer) (payload : Payload) (requirements : Terms) : Exec Response := do
  let verified ← perform (.verifyPayment payload requirements)
  match verified.payer with
  | none => refuse "Payment verification failed or native payer is unproven." 402
  | some payer =>
    if verified.isValid = false ∨ isAccount payer = false then
      refuse "Payment verification failed or native payer is unproven." 402
    else if offer.any (fun offer => decide (payer ≠ offer.payer)) = true then
      refuse "Payment payer differs from negotiated offer." 402
    else do
      let evidence ← tryCatch (some <$> perform (.fetchRepoEvidence repos)) fun _ => pure none
      match evidence with
      | none => refuse "GitHub evidence unavailable; payment was not submitted." 502
      | some evidence =>
        match payload.transaction with
        | none => refuse "Missing native transaction." 400
        | some transaction => do
          let id ← Prog.ofExcept (P.nativeId transaction)
          match id with
          | none => refuse "Missing native transaction ID." 400
          | some id =>
            if id = [] then refuse "Missing native transaction ID." 400
            else claimPayment P token repos quote offer payload requirements payer evidence id

/-- Whether the payload pays for the resource at the terms. -/
def pays (payload : Payload) (requirements : Terms) (url : JsString) : Bool :=
  decide (payload.x402Version = some 2 ∧ payload.resourceUrl = some url ∧
    payload.accepted = some requirements)

/-- Whether the offer is for this request. -/
def offerFits (offer : A2AOffer) (request : Request) (quote : Quote) (url payTo : JsString)
    (repos : List JsString) : Bool :=
  decide (request.idempotencyKey = some offer.paymentRequestId ∧
    offer.providerId = request.providerId ∧ offer.resourceUrl = url ∧ offer.payTo = payTo ∧
    offer.amountAtomic = quote.amountAtomic ∧ offer.unitPriceAtomic = quote.unitPriceAtomic ∧
    offer.repos = repos)

/-- The offer of a request, if it has one. -/
def readOffer (request : Request) (token : Option Token) (quote : Quote) (url payTo : JsString)
    (repos : List JsString) : Exec (Option A2AOffer) :=
  match request.body.prop "a2aOfferToken" with
  | none => pure none
  | some (.str offerToken) =>
    if token.isSome then throw .other
    else do
      let offer ← perform (.verifyOffer offerToken)
      if offerFits offer request quote url payTo repos then pure (some offer) else throw .other
  | some _ => throw .other

/-- Pay for the evidence of validated repositories. -/
def payEvidence (request : Request) (token : Option Token) (quote : Quote) (url payTo : JsString)
    (repos : List JsString) (offer : Option A2AOffer) : Exec Response := do
  let requirements ← perform (.buildPaymentRequirements payTo
    ((token.map Token.asset).getD (js "0.0.0")) (JsString.decimal quote.amountAtomic.toNat))
  match request.signature with
  | none => pure (.challenge requirements)
  | some signature =>
    if signature = [] then pure (.challenge requirements)
    else if 24000 < signature.length then refuse "Oversized payment signature." 400
    else match P.decodePaymentSignatureHeader signature with
      | none => refuse "Malformed payment signature." 400
      | some payload =>
        if pays payload requirements url = false then pure (.changed requirements)
        else verifiedPayment P token repos quote offer payload requirements

/-- The repositories of a request, and their price. -/
def readQuote (request : Request) (prices : PriceBook) (payTo : JsString) :
    Except JsError (List JsString × Quote) := do
  let repos ← validateRepos P.texts ((request.body.prop "repos").getD .null)
  let quote ← createQuote request.providerId repos prices payTo
  return (repos, quote)

/-- The price list of a request. -/
def priceBook : Option Token → Exec PriceBook
  | some token => pure ⟨token.unitPriceAtomic, token.unitPriceAtomic⟩
  | none => perform .prices

/-- The request with its recipient. -/
def evidenceRequest (request : Request) (token : Option Token) (payTo : JsString) :
    Exec Response := do
  let url := P.appOrigin ++ js "/x402" ++ (if token.isSome then js "/hts" else []) ++
    js "/evidence/" ++ request.providerId
  let read ← tryCatch (do
      let prices ← priceBook token
      some <$> Prog.ofExcept (readQuote P request prices payTo)) fun _ => pure none
  match read with
  | none => refuse "Invalid provider or repository request." 400
  | some (repos, quote) => do
    let offer ← tryCatch (some <$> readOffer request token quote url payTo repos) fun _ => pure none
    match offer with
    | none => refuse "Invalid, changed or expired A2A offer." 400
    | some offer => payEvidence P request token quote url payTo repos offer

/-- `recipient()` -/
def Service.recipient : Except JsError JsString :=
  match P.payTo with
  | none => JsError.raise "Recipient missing"
  | some value => if isAccount value then .ok value else JsError.raise "Recipient missing"

/-- The HTS terms of a request, if it asks for them. -/
def requestToken (request : Request) : Exec (Option Token) :=
  if request.hts then perform .tokenConfig else pure none

/-- `token?.payTo ?? recipient()` -/
def recipientOf : Option Token → Exec JsString
  | some token => pure token.payTo
  | none => Prog.ofExcept P.recipient

/-- `publicDataRequest(req, path)` for `POST …/evidence/<provider>`. -/
def publicDataRequest (request : Request) : Exec Response :=
  tryCatch (do
    let token ← requestToken request
    if request.hts ∧ token.isNone then refuse "HTS service is not configured." 503
    else do
      let payTo ← recipientOf P token
      evidenceRequest P request token payTo)
    fun _ => refuse "Data service unavailable. Reconcile any submitted payment before retrying." 503

end DataService

end Obolos
