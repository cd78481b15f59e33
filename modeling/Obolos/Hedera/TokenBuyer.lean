import Obolos.Crash.Callers
import Obolos.Hedera.Purchase

/-!
# Buying evidence with test credits

`purchaseHtsRepositories` pays for one request with a token of a fixed supply.  It works behind a
process lock, which is taken to be exclusive.  It looks for the journal of the request, and when
there is one it only recovers from it (`recover`).  Otherwise it checks the quote, the token and
the challenge, creates the journal, signs one transaction and sends one paid request.

The data is the journal of one request, whether the call that read it last found none, what is
signed, sent, fetched and proved for the request, and the time.
-/

namespace Obolos

namespace Hedera

namespace Hts

open Json
open DataService (Settlement isAccount normalizeTransactionId validateSettlement)
open Runs.Evidence (Texts validateRepos validateEvidence asNum)

/-! ### What is bought -/

/-- `TokenTerms` -/
structure TokenTerms where
  asset : JsString
  payer : JsString
  payTo : JsString
  amountAtomic : ℚ
  deriving DecidableEq

/-- `HtsRepositoryPurchase` -/
structure HtsRepositoryPurchase where
  requestId : JsString
  resourceBaseUrl : JsString
  providerId : JsString
  repos : List JsString
  terms : TokenTerms
  unitPriceAtomic : ℚ
  maxAmountAtomic : ℚ
  mandateExpiresAt : JsString
  symbol : JsString
  decimals : ℚ
  deriving DecidableEq

/-- What is read of `HederaCredentials`. -/
structure Credentials where
  accountId : JsString
  privateKey : JsString

/-- The parts of `new URL(text)` that are looked at, and its `href` with a slash after the path. -/
structure UrlParts where
  protocol : JsString
  hostname : JsString
  username : JsString
  password : JsString
  search : JsString
  hash : JsString
  pathname : JsString
  href : JsString
  slashed : JsString

/-- The packages and the functions of the platform that the buyer uses. -/
structure Packages where
  texts : Texts
  url : JsString → Option UrlParts
  /-- `createHash('sha256').update(text).digest('hex')` -/
  sha256 : JsString → JsString
  decodePaymentRequiredHeader : JsString → Except JsError Required
  decodePaymentResponseHeader : JsString → Except JsError Settlement
  nativeId : JsString → Except JsError (Option JsString)

/-- `HtsPurchaseResult` -/
structure HtsPurchaseResult where
  requestId : JsString
  transactionId : JsString
  terms : TokenTerms
  units : ℕ
  evidence : List Json
  settlement : Settlement

/-- `Received` -/
structure Received where
  settlement : Settlement
  evidence : Json

/-- A row of the token transfers of a transaction. -/
structure TokenRow where
  account : JsString
  amount : ℚ
  tokenId : Option JsString

/-- A transaction of the mirror node. -/
structure TokenTransaction where
  result : JsString
  name : JsString
  tokenTransfers : List TokenRow

/-! ### Checks -/

variable (P : Packages)

/-- `trustedBase(value)` -/
def trustedBase (value : JsString) : Except JsError UrlParts :=
  match P.url value with
  | none => .error .other
  | some url =>
    if (url.protocol ≠ js "https:" ∧ ¬ (url.protocol = js "http:" ∧
        [js "127.0.0.1", js "localhost", js "[::1]"].contains url.hostname = true)) ∨
        url.username ≠ [] ∨ url.password ≠ [] ∨ url.search ≠ [] ∨ url.hash ≠ [] then
      JsError.raise "HTTPS or loopback URL required."
    else if (js "/").isSuffixOf url.pathname then .ok url
    else .ok { url with
      pathname := url.pathname ++ js "/"
      href := url.slashed }

/-- `validateTokenTerms(value)` -/
def validateTokenTerms (terms : TokenTerms) : Except JsError TokenTerms :=
  if isAccount terms.asset = false ∨ isAccount terms.payer = false ∨ isAccount terms.payTo = false ∨
      positiveAtomic terms.amountAtomic = false then .error .other
  else if terms.payer = terms.payTo then
    JsError.raise "Payer and service recipient must differ."
  else .ok terms

/-- `inputSchema` -/
def inputSchema (value : HtsRepositoryPurchase) : Bool :=
  isIdentity [95, 58, 45] value.requestId && decide (value.providerId = js "repo-standard") &&
    decide (1 ≤ value.repos.length ∧ value.repos.length ≤ 3) &&
    decide (value.unitPriceAtomic = 1) &&
    decide (value.maxAmountAtomic.den = 1 ∧ 1 ≤ value.maxAmountAtomic ∧ value.maxAmountAtomic ≤ 3) &&
    P.texts.isDatetime value.mandateExpiresAt &&
    decide (1 ≤ value.symbol.length ∧ value.symbol.length ≤ 12) && isIdentity [95, 45] value.symbol &&
    decide (value.decimals = 0)

/-- `validateInput(value, credentials)` -/
def validateInput (value : HtsRepositoryPurchase) (credentials : Credentials) :
    Except JsError HtsRepositoryPurchase :=
  if inputSchema P value = false then .error .other
  else do
    let terms ← validateTokenTerms value.terms
    let repos ← validateRepos P.texts (.arr (value.repos.map .str))
    let base ← trustedBase P value.resourceBaseUrl
    if ¬ (js "/x402/hts/").isSuffixOf base.pathname ∨ credentials.accountId ≠ terms.payer ∨
        credentials.privateKey = [] ∨ terms.amountAtomic ≠ value.unitPriceAtomic * repos.length ∨
        value.maxAmountAtomic < terms.amountAtomic then
      JsError.raise "Invalid pinned HTS resource, payer or bounded token authority."
    else .ok { value with
      terms := terms
      repos := repos
      resourceBaseUrl := base.href }

/-- A purchase as it is written by `JSON.stringify`. -/
def HtsRepositoryPurchase.json (input : HtsRepositoryPurchase) : Json :=
  .obj [(js "requestId", .str input.requestId),
    (js "resourceBaseUrl", .str input.resourceBaseUrl),
    (js "providerId", .str input.providerId), (js "repos", .arr (input.repos.map .str)),
    (js "terms", .obj [(js "asset", .str input.terms.asset), (js "payer", .str input.terms.payer),
      (js "payTo", .str input.terms.payTo), (js "amountAtomic", .num input.terms.amountAtomic)]),
    (js "unitPriceAtomic", .num input.unitPriceAtomic),
    (js "maxAmountAtomic", .num input.maxAmountAtomic),
    (js "mandateExpiresAt", .str input.mandateExpiresAt), (js "symbol", .str input.symbol),
    (js "decimals", .num input.decimals)]

/-- The hash of the text of a purchase. -/
def Packages.fingerprint (input : HtsRepositoryPurchase) : JsString :=
  P.sha256 (stringify P.texts.host.numerals input.json)

/-- `Date.parse(expiresAt) <= now`; a text that is no date has not lapsed. -/
def Packages.lapsed (expiresAt : JsString) (now : ℤ) : Bool :=
  (P.texts.host.dateParse expiresAt).any fun t => decide (t ≤ now)

/-- A text, or `undefined`, of an object. -/
def textOf (key : String) (x : Json) : Option JsString := (x.prop key).bind asStr

/-- A number, or `undefined`, of an object. -/
def numOf (key : String) (x : Json) : Option ℚ := (x.prop key).bind asNum

/-- The quote is that of the purchase, but for its expiry; the expiry when it is a date. -/
def quoteExpiry (input : HtsRepositoryPurchase) (quote : Json) : Option JsString :=
  if textOf "providerId" quote ≠ some input.providerId ∨
      numOf "units" quote ≠ some (input.repos.length : ℚ) ∨
      numOf "unitPriceAtomic" quote ≠ some input.unitPriceAtomic ∨
      numOf "amountAtomic" quote ≠ some input.terms.amountAtomic ∨
      textOf "payTo" quote ≠ some input.terms.payTo ∨
      textOf "network" quote ≠ some (js "hedera:testnet") ∨
      textOf "asset" quote ≠ some input.terms.asset ∨ numOf "decimals" quote ≠ some 0 ∨
      textOf "symbol" quote ≠ some input.symbol then none
  else (textOf "expiresAt" quote).filter fun s => (P.texts.host.dateParse s).isSome

/-- The token has no fees of this kind. -/
def noFees (fees : List (JsString × Json)) (field : String) : Bool :=
  match get (js field) fees with
  | none => true
  | some (.arr []) => true
  | some _ => false

/-- The token is the pinned one. -/
def isPinnedToken (input : HtsRepositoryPurchase) (metadata : Json) : Bool :=
  decide (textOf "token_id" metadata = some input.terms.asset ∧
    textOf "type" metadata = some (js "FUNGIBLE_COMMON") ∧
    textOf "supply_type" metadata = some (js "FINITE") ∧
    (numOf "decimals" metadata = some 0 ∨ textOf "decimals" metadata = some (js "0")) ∧
    textOf "symbol" metadata = some input.symbol) &&
  match metadata.prop "custom_fees" with
  | some (.obj fees) => ["fixed_fees", "fractional_fees", "royalty_fees"].all (noFees fees)
  | _ => false

/-- `exactRequirements(value, input, feePayer)` -/
def exactRequirements (value : Requirements) (input : HtsRepositoryPurchase) (feePayer : JsString) :
    Except JsError Unit :=
  if value.terms.scheme ≠ some (js "exact") ∨ value.terms.network ≠ some (js "hedera:testnet") ∨
      value.terms.asset ≠ some input.terms.asset ∨ value.terms.payTo ≠ some input.terms.payTo ∨
      isAmount value.terms.amount input.terms.amountAtomic = false ∨
      value.terms.feePayer ≠ some feePayer ∨ isAccount feePayer = false ∨
      feePayer = input.terms.payer ∨ feePayer = input.terms.payTo ∨
      value.terms.maxTimeoutSeconds.all (fun t => t.den = 1 && decide (1 ≤ t ∧ t ≤ 120)) = false ∨
      value.terms.maxTimeoutSeconds = none ∨
      value.paymentFlow.any (fun flow => flow ≠ [] ∧ flow ≠ js "authorization") = true then
    JsError.raise "HTS x402 challenge violates exact asset, recipient, amount or facilitator mandate."
  else .ok ()

/-- The sum of the rows of an account. -/
def tokenSum (rows : List TokenRow) (account : JsString) : ℚ :=
  ((rows.filter fun row => row.account = account).map TokenRow.amount).sum

/-- The transactions contain the exact transfer. -/
def tokenProves (transactions : List TokenTransaction) (terms : TokenTerms) : Bool :=
  transactions.any fun tx =>
    decide (tx.result = js "SUCCESS" ∧ tx.name = js "CRYPTOTRANSFER" ∧
      tx.tokenTransfers.length = 2) &&
    tx.tokenTransfers.all (fun row =>
      decide (row.tokenId = some terms.asset) && Runs.isSafeInteger row.amount) &&
    decide (tokenSum tx.tokenTransfers terms.payer = -terms.amountAtomic ∧
      tokenSum tx.tokenTransfers terms.payTo = terms.amountAtomic)

/-- `validateTokenTransfer(value, input)` -/
def validateTokenTransfer (transactions : List TokenTransaction) (input : TokenTerms) :
    Except JsError Unit := do
  let terms ← validateTokenTerms input
  if tokenProves transactions terms then .ok ()
  else JsError.raise "Mirror node has not proved the exact HTS transfer."

/-- `received(value, input, transactionId)` -/
def received (value : Received) (input : HtsRepositoryPurchase) (transactionId : JsString) :
    Except JsError (Settlement × List Json) := do
  validateSettlement value.settlement input.terms.payer
  if value.settlement.transaction.map normalizeTransactionId ≠
      some (normalizeTransactionId transactionId) then
    JsError.raise "HTS settlement differs from the signed transaction; reconcile."
  else do
    let evidence ← validateEvidence P.texts value.evidence input.repos
    pure (value.settlement, evidence)

/-- `completed(input, transactionId, value)` -/
def completed (input : HtsRepositoryPurchase) (transactionId : JsString)
    (value : Settlement × List Json) : HtsPurchaseResult :=
  ⟨input.requestId, transactionId, input.terms, input.repos.length, value.2, value.1⟩

/-- The settlement of a receipt. -/
def readSettlement (x : Option Json) : Settlement where
  success := match x.bind (Json.prop "success") with
    | some (.bool b) => b
    | _ => false
  transaction := x.bind (textOf "transaction")
  network := x.bind (textOf "network")
  payer := x.bind (textOf "payer")

/-- The receipt of the resource is that of the purchase. -/
def isReceipt (input : HtsRepositoryPurchase) (transactionId : JsString) (body : Json) : Bool :=
  decide (textOf "state" body = some (js "settled") ∧
    ((textOf "transactionId" body).map normalizeTransactionId =
      some (normalizeTransactionId transactionId)) ∧
    textOf "providerId" body = some input.providerId ∧
    (body.prop "repos").map (stringify P.texts.host.numerals) =
      some (stringify P.texts.host.numerals (.arr (input.repos.map .str))) ∧
    numOf "amountAtomic" body = some input.terms.amountAtomic ∧
    textOf "asset" body = some input.terms.asset)

/-! ### The data -/

/-- What is read of an `Intent`. -/
structure Intent where
  fingerprint : JsString
  transactionId : Option JsString
  received : Option (Settlement × List Json)
  result : Option HtsPurchaseResult

/-- The journal of the request: there is none, it is not written yet, or it has this content. -/
inductive Journal
  | absent
  | partial_
  | content (intent : Intent)

/-- A request over the network that pays nothing. -/
inductive Fetch
  | quote
  | metadata
  | unpaid
  | supported
  | mirror (transactionId : JsString)
  | receipt (transactionId : JsString)
  deriving DecidableEq

/-- What is signed, sent, fetched and proved for the request. -/
structure Accounts where
  signs : List Signature
  dispatches : List Dispatch
  fetches : List Fetch
  mirrors : List (JsString × List TokenTransaction)

/-- The journal, whether the call that read it last found none, and the accounts. -/
structure Ledger where
  journal : Journal
  creating : Bool
  accounts : Accounts

/-- The ledger, and the time. -/
structure Data where
  ledger : Ledger
  clock : ℤ

/-! ### The purchase -/

/-- What the code awaits behind the lock. -/
inductive Work
  | readJournal
  | now
  | fetchQuote
  | fetchMetadata
  | fetchUnpaid
  | fetchSupported
  | decodeKey
  | mkdir
  /-- `open(filename, 'wx')` -/
  | create
  /-- Write, sync and close the new journal. -/
  | write (intent : Intent)
  | syncDirectory
  | sign (requirements : Requirements)
  /-- Write, sync and close a new file. -/
  | writeTemp
  | rename (intent : Intent)
  /-- The request with the signed transaction. -/
  | dispatch (transaction : JsString)
  | mirror (transactionId : JsString)
  | receipt (transactionId : JsString)

/-- What the code is answered. -/
@[reducible] def WorkAnswer : Work → Type
  | .readJournal => Journal
  | .now => ℤ
  | .fetchQuote => Json
  | .fetchMetadata => Json
  | .fetchUnpaid => Unpaid
  | .fetchSupported => Option JsString
  | .sign _ => Option JsString
  | .dispatch _ => Paid
  | .mirror _ => List TokenTransaction
  | .receipt _ => Json
  | _ => Unit

/-- The code behind the lock. -/
abbrev Held := Prog Work WorkAnswer JsError

/-- One effect. -/
def await (o : Work) : Held (WorkAnswer o) := Prog.await o

/-- `throw Error(message)` -/
def refuse {α : Type} (message : String) : Held α := throw (.error (js message))

/-- `active(input)` -/
def active (input : HtsRepositoryPurchase) : Held Unit := do
  let now ← await .now
  if P.lapsed input.mandateExpiresAt now then
    refuse "HTS mandate expired; no payment authorized."
  else pure ()

/-- `durableWrite(filename, intent, true)` -/
def createJournal (intent : Intent) : Held Unit := do
  await .mkdir
  await .create
  await (.write intent)
  await .syncDirectory

/-- `durableWrite(filename, intent)` -/
def rewriteJournal (intent : Intent) : Held Unit := do
  await .mkdir
  await .writeTemp
  await (.rename intent)
  await .syncDirectory

/-- `mirrorProof(transactionId, input)` -/
def mirrorProof (transactionId : JsString) (input : HtsRepositoryPurchase) : Held Unit := do
  let body ← await (.mirror transactionId)
  Prog.ofExcept (validateTokenTransfer body input.terms)

/-- Store a result, and return it. -/
def conclude (intent : Intent) (result : HtsPurchaseResult) : Held HtsPurchaseResult := do
  rewriteJournal { intent with result := some result }
  pure result

/-- What was received, or else what the receipt of the resource says. -/
def readReceipt (intent : Intent) (input : HtsRepositoryPurchase) (transactionId : JsString) :
    Held Received :=
  match intent.received with
  | some checked => pure ⟨checked.1, .arr checked.2⟩
  | none => do
    let body ← await (.receipt transactionId)
    if isReceipt P input transactionId body = false then
      refuse "Stored HTS resource receipt differs from the paid request."
    else pure ⟨readSettlement (body.prop "settlement"), (body.prop "evidence").getD .null⟩

/-- `recover(intent, input, filename)` -/
def recover (intent : Intent) (input : HtsRepositoryPurchase) : Held HtsPurchaseResult :=
  match intent.transactionId with
  | none => refuse "HTS purchase already attempted without a saved transaction; reconcile the intent."
  | some transactionId =>
    match intent.result with
    | some result => do
      let checked ← Prog.ofExcept
        (received P ⟨result.settlement, .arr result.evidence⟩ input transactionId)
      pure (completed input transactionId checked)
    | none => do
      mirrorProof transactionId input
      let response ← readReceipt P intent input transactionId
      let checked ← Prog.ofExcept (received P response input transactionId)
      conclude { intent with received := some checked } (completed input transactionId checked)

/-- What follows the answer to the paid request. -/
def settle (intent : Intent) (input : HtsRepositoryPurchase) (transactionId : JsString)
    (response : Paid) : Held HtsPurchaseResult :=
  match response.header with
  | none => refuse "HTS payment result uncertain; reconcile the saved transaction."
  | some header =>
    if response.ok = false ∨ header = [] ∨ 24000 < header.length then
      refuse "HTS payment result uncertain; reconcile the saved transaction."
    else do
      let settlement ← Prog.ofExcept (P.decodePaymentResponseHeader header)
      let checked ← Prog.ofExcept
        (received P ⟨settlement, response.evidence⟩ input transactionId)
      let stored : Intent := { intent with received := some checked }
      rewriteJournal stored
      mirrorProof transactionId input
      conclude stored (completed input transactionId checked)

/-- Send the signed payment. -/
def send (intent : Intent) (input : HtsRepositoryPurchase)
    (quoteExpiresAt transaction transactionId : JsString) : Held HtsPurchaseResult := do
  let signed : Intent := { intent with transactionId := some transactionId }
  rewriteJournal signed
  active P input
  let now ← await .now
  if P.lapsed quoteExpiresAt now then
    refuse "HTS quote expired before dispatch; reconcile signed intent."
  else do
    let response ← tryCatch (await (.dispatch transaction)) fun _ => refuse
      "HTS payment transport uncertain; reconcile the saved transaction before retrying."
    settle P signed input transactionId response

/-- Create the journal, sign the payment, and send it. -/
def pay (input : HtsRepositoryPurchase) (quoteExpiresAt : JsString) (requirements : Requirements) :
    Held HtsPurchaseResult := do
  let intent : Intent := ⟨P.fingerprint input, none, none, none⟩
  createJournal intent
  active P input
  let now ← await .now
  if P.lapsed quoteExpiresAt now then
    refuse "HTS quote expired before signing; reconcile this reserved intent."
  else do
    let signed ← await (.sign requirements)
    match signed with
    | none => refuse "HTS signer returned no transaction."
    | some transaction => do
      let id ← Prog.ofExcept (P.nativeId transaction)
      match id with
      | none => refuse "HTS signed transaction lacks permanent identity."
      | some transactionId =>
        if transactionId = [] then refuse "HTS signed transaction lacks permanent identity."
        else send P intent input quoteExpiresAt transaction transactionId

/-- The quote, and when it expires. -/
def fetchQuote (input : HtsRepositoryPurchase) : Held JsString := do
  active P input
  let quote ← await .fetchQuote
  active P input
  match quoteExpiry P input quote with
  | none => refuse "HTS quote differs from the explicitly approved fixed test-credit terms."
  | some expiresAt => do
    let now ← await .now
    if P.lapsed expiresAt now then
      refuse "HTS quote differs from the explicitly approved fixed test-credit terms."
    else pure expiresAt

/-- The challenge of the resource, with the requirements that are accepted. -/
def fetchChallenge (input : HtsRepositoryPurchase) : Held Requirements := do
  active P input
  let unpaid ← await .fetchUnpaid
  if unpaid.status ≠ 402 then refuse "HTS resource did not return an x402 challenge."
  else match unpaid.header with
    | none => refuse "Invalid HTS payment challenge."
    | some header =>
      if header = [] ∨ 24000 < header.length then refuse "Invalid HTS payment challenge."
      else do
        let challenge ← Prog.ofExcept (P.decodePaymentRequiredHeader header)
        match challenge.accepts with
        | [requirements] =>
          if challenge.x402Version ≠ 2 ∨ challenge.resourceUrl ≠
              some (input.resourceBaseUrl ++ js "evidence/" ++ input.providerId) then
            refuse "HTS challenge changed the exact resource or payment alternatives."
          else do
            let supported ← await .fetchSupported
            match supported with
            | none => refuse "Blocky402 testnet native facilitator unavailable."
            | some feePayer => do
              Prog.ofExcept (exactRequirements requirements input feePayer)
              await .decodeKey
              pure requirements
        | _ => refuse "HTS challenge changed the exact resource or payment alternatives."

/-- What a call makes of the journal that it has read. -/
def purchaseAfter (input : HtsRepositoryPurchase) : Journal → Held HtsPurchaseResult
  | .content previous =>
    if previous.fingerprint ≠ P.fingerprint input then
      refuse "HTS request identity was reused with different terms."
    else recover P previous input
  | .partial_ => throw .other
  | .absent => do
    let quoteExpiresAt ← fetchQuote P input
    let metadata ← await .fetchMetadata
    if isPinnedToken input metadata = false then
      refuse "Token metadata is not the pinned fee-free zero-decimal finite test credit."
    else do
      let requirements ← fetchChallenge P input
      pay P input quoteExpiresAt requirements

/-- The work behind the lock. -/
def purchase (input : HtsRepositoryPurchase) : Held HtsPurchaseResult := do
  let journal ← await .readJournal
  purchaseAfter P input journal

/-- `purchaseHtsRepositories(value, credentials, directory)` -/
def purchaseHtsRepositories (value : HtsRepositoryPurchase) (credentials : Credentials) :
    Prog (Locked Work) (Locked.Answer WorkAnswer) JsError HtsPurchaseResult := do
  let input ← Prog.ofExcept (validateInput P value credentials)
  Locked.exclusive (.error (js "Another process owns this operation lock.")) (purchase P input)

end Hts

end Hedera

end Obolos
