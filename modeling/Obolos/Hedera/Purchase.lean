import Obolos.Platform.DataService

/-!
# Buying evidence with native HBAR

`purchaseHederaData` pays for one request.  It looks for the journal of the request first, and when
there is none it negotiates the payment, creates the journal exclusively, and only then signs one
transaction and sends one paid request.  A call that finds a journal returns the result in it, or
refuses.

The world is the journal of one request, what is signed, sent and proved for it, and for every call
the time and what it fetches.
-/

namespace Obolos

namespace Hedera

open DataService (Terms Settlement isAccount normalizeTransactionId validateSettlement)
open Runs (RepoEvidence)
open Runs.Evidence (Texts validateRepos validateEvidence)

/-! ### What is bought -/

/-- `DataPurchase` -/
structure DataPurchase where
  runId : JsString
  requestId : JsString
  repos : List JsString
  providerId : JsString
  maxAmountAtomic : ℚ
  unitPriceAtomic : ℚ
  mandateExpiresAt : JsString
  a2aOfferToken : Option JsString

/-- `PaymentRequirements` -/
structure Requirements where
  terms : Terms
  paymentFlow : Option JsString
  deriving DecidableEq

/-- What is read of a decoded challenge. -/
structure Required where
  x402Version : ℚ
  resourceUrl : Option JsString
  accepts : List Requirements

/-- What is read of the answer to the unpaid request. -/
structure Unpaid where
  status : ℕ
  header : Option JsString

/-- What is read of the answer to the paid request. -/
structure Paid where
  ok : Bool
  header : Option JsString
  evidence : Json

/-- A transaction of the mirror node. -/
structure MirrorTransaction where
  result : JsString
  name : JsString
  transfers : List (JsString × ℚ)
  tokenTransfers : ℕ

/-- `PurchaseResult`, with what is checked of its receipt. -/
structure PurchaseResult where
  evidence : List Json
  requestId : JsString
  amountAtomic : ℚ
  units : ℕ
  provider : JsString
  transactionId : JsString

/-- The environment of the broker, and the packages it decodes payments with. -/
structure Environment where
  texts : Texts
  /-- What `serviceBase()` returns. -/
  base : Except JsError JsString
  payTo : JsString
  accountId : JsString
  privateKey : JsString
  /-- The hash of the terms of a purchase. -/
  fingerprint : DataPurchase → JsString
  decodePaymentRequiredHeader : JsString → Except JsError Required
  decodePaymentResponseHeader : JsString → Except JsError Settlement
  nativeId : JsString → Except JsError (Option JsString)

/-! ### Checks -/

variable (E : Environment)

/-- `assertMandateActive(expiresAt)` at a time -/
def Environment.active (expiresAt : JsString) (now : ℤ) : Bool :=
  (E.texts.host.dateParse expiresAt).any fun t => decide (now < t)

/-- `Number.isSafeInteger(value) && value > 0` -/
def positiveAtomic (q : ℚ) : Bool := Runs.isSafeInteger q && decide (0 < q)

/-- `providerIds` -/
def providerIds : List JsString := [js "repo-standard", js "repo-economy"]

/-- Letters, digits, and other characters, at most 180. -/
def isIdentity (others : List UInt16) (s : JsString) : Bool :=
  decide (1 ≤ s.length ∧ s.length ≤ 180) &&
    s.all fun c => Circle.isAlphanumeric c || others.contains c

/-- `/^\d+$/.test(value.amount) && BigInt(value.amount) === BigInt(amount)` -/
def isAmount (text : Option JsString) (amount : ℚ) : Bool :=
  text.any fun s => decide (s ≠ []) && decide ((readDecimals 0 s).map (fun n => (n : ℚ)) = some amount)

/-- `validatePaymentRequirements(value, input, payTo, feePayer)` -/
def validatePaymentRequirements (value : Requirements) (input : DataPurchase) (payTo feePayer : JsString) :
    Except JsError ℚ :=
  let amount := input.unitPriceAtomic * input.repos.length
  if providerIds.contains input.providerId = false ∨ positiveAtomic input.unitPriceAtomic = false ∨
      positiveAtomic input.maxAmountAtomic = false ∨ positiveAtomic amount = false ∨
      input.maxAmountAtomic < amount then
    JsError.raise "Approved data allowance is invalid or insufficient."
  else if value.terms.scheme ≠ some (js "exact") ∨
      value.terms.network ≠ some (js "hedera:testnet") ∨ value.terms.asset ≠ some (js "0.0.0") ∨
      value.terms.payTo ≠ some payTo ∨ isAccount payTo = false then
    JsError.raise "Payment network, asset, scheme or recipient violates the mandate."
  else if isAmount value.terms.amount amount = false then
    JsError.raise "Provider price changed; renew the quote before authorizing payment."
  else if value.terms.maxTimeoutSeconds.all (fun t => t.den = 1 && decide (1 ≤ t ∧ t ≤ 120)) = false ∨
      value.terms.maxTimeoutSeconds = none ∨ isAccount feePayer = false ∨
      value.terms.feePayer ≠ some feePayer then
    JsError.raise "Untrusted facilitator fee payer or transaction lifetime."
  else if value.paymentFlow.any (fun flow => flow ≠ [] ∧ flow ≠ js "authorization") = true then
    JsError.raise "Unsupported payment flow."
  else .ok amount

/-- The sum of the transfers of an account. -/
def transferred (tx : MirrorTransaction) (account : JsString) : ℚ :=
  ((tx.transfers.filter fun t => t.1 = account).map Prod.snd).sum

/-- `validateMirrorTransfer(value, payer, payTo, amount)` -/
def mirrorProves (transactions : List MirrorTransaction) (payer payTo : JsString) (amount : ℚ) : Bool :=
  transactions.any fun tx => decide (tx.result = js "SUCCESS" ∧ tx.name = js "CRYPTOTRANSFER" ∧
    tx.tokenTransfers = 0 ∧ transferred tx payer = -amount ∧ transferred tx payTo = amount)

/-! ### The world -/

/-- The content of a journal. -/
structure Content where
  fingerprint : JsString
  transactionId : Option JsString
  result : Option PurchaseResult

/-- The journal of the request: there is none, it is not written yet, or it has this content. -/
inductive File
  | absent
  | partial_
  | content (c : Content)

/-- A signature. -/
structure Signature where
  requirements : Requirements
  transaction : Option JsString

/-- A paid request with a signed transaction, and when it was sent. -/
structure Dispatch where
  transaction : JsString
  time : ℤ

/-- What is signed, sent and proved for the request. -/
structure Books where
  signs : List Signature
  dispatches : List Dispatch
  mirrors : List (JsString × List MirrorTransaction)

/-- The journal, the call that created it, and the books. -/
structure Store (ι : Type) where
  file : File
  creator : Option ι
  books : Books

/-- A request over the network. -/
inductive Fetch
  | unpaid
  | supported
  | paid (transaction : JsString)
  | mirror (transactionId : JsString)
  deriving DecidableEq

/-- The store, and for every call the time and what it has fetched. -/
structure World (ι : Type) where
  store : Store ι
  clock : ι → ℤ
  fetches : ι → List Fetch

/-! ### The purchase -/

/-- What the code awaits. -/
inductive Effect
  | now
  | mkdir
  | readJournal
  | fetchUnpaid
  | fetchSupported
  | decodeKey
  /-- `open(journal, 'wx')` -/
  | create
  /-- Write, sync and close the new journal. -/
  | write (content : Content)
  | sign (requirements : Requirements)
  /-- Write, sync and close a new file. -/
  | writeTemp
  | rename (content : Content)
  /-- The request with the signed transaction. -/
  | dispatch (transaction : JsString)
  | mirror (transactionId : JsString)
  | sleep

/-- What the code is answered. -/
@[reducible] def Answer : Effect → Type
  | .now => ℤ
  | .readJournal => File
  | .fetchUnpaid => Unpaid
  | .fetchSupported => Option JsString
  | .sign _ => Option JsString
  | .dispatch _ => Paid
  | .mirror _ => List MirrorTransaction
  | _ => Unit

/-- The code of the broker. -/
abbrev Exec := Prog Effect Answer JsError

/-- One effect. -/
def perform (o : Effect) : Exec (Answer o) := Prog.await o

/-- `throw new Error(message)` -/
def fail {α : Type} (message : String) : Exec α := throw (.error (js message))

/-- `assertMandateActive(expiresAt)` -/
def assertMandateActive (expiresAt : JsString) : Exec Unit := do
  let now ← perform .now
  if E.active expiresAt now then pure ()
  else fail "Data mandate is expired or has an invalid expiry; payment authorization is required."

/-- `durableWrite(journal, content)` -/
def durableWrite (content : Content) : Exec Unit := do
  perform .writeTemp
  perform (.rename content)

/-- The polling of the mirror node, `n` attempts left. -/
def proveTransfer (transactionId : JsString) (amount : ℚ) : ℕ → Exec Bool
  | 0 => pure false
  | n + 1 => do
    let proved ← tryCatch (do
        let transactions ← perform (.mirror (normalizeTransactionId transactionId))
        pure (mirrorProves transactions E.accountId E.payTo amount)) fun _ => pure false
    if proved then pure true
    else do
      perform .sleep
      proveTransfer transactionId amount n

/-- What follows the answer to the paid request. -/
def settle (input : DataPurchase) (repos : List JsString) (amount : ℚ) (transactionId : JsString)
    (response : Paid) : Exec PurchaseResult :=
  match response.header with
  | none => fail "Paid request has no successful settlement response; reconcile before retrying."
  | some header =>
    if response.ok = false ∨ header = [] ∨ 24000 < header.length then
      fail "Paid request has no successful settlement response; reconcile before retrying."
    else do
      let settlement ← Prog.ofExcept (E.decodePaymentResponseHeader header)
      Prog.ofExcept (validateSettlement settlement E.accountId)
      if settlement.transaction.map normalizeTransactionId ≠
          some (normalizeTransactionId transactionId) then
        fail "Settlement transaction differs from the signed intent."
      else do
        let proved ← proveTransfer E transactionId amount 5
        if proved = false then
          fail "Payment may have settled but mirror proof is unavailable; reconcile recorded transaction before retrying."
        else do
          let evidence ← Prog.ofExcept (validateEvidence E.texts response.evidence repos)
          let result : PurchaseResult :=
            ⟨evidence, input.requestId, amount, repos.length, input.providerId, transactionId⟩
          durableWrite ⟨E.fingerprint input, none, some result⟩
          pure result

/-- Sign the payment, and send it. -/
def pay (input : DataPurchase) (repos : List JsString) (amount : ℚ) (requirements : Requirements) :
    Exec PurchaseResult := do
  perform .create
  perform (.write ⟨E.fingerprint input, none, none⟩)
  assertMandateActive E input.mandateExpiresAt
  let signed ← perform (.sign requirements)
  match signed with
  | none => fail "Hedera signer did not produce a transaction."
  | some transaction => do
    let id ← Prog.ofExcept (E.nativeId transaction)
    match id with
    | none => fail "Signed transfer has no transaction id."
    | some transactionId =>
      if transactionId = [] then fail "Signed transfer has no transaction id."
      else do
        durableWrite ⟨E.fingerprint input, some transactionId, none⟩
        assertMandateActive E input.mandateExpiresAt
        let response ← perform (.dispatch transaction)
        settle E input repos amount transactionId response

/-- Negotiate the payment: the requirements that are accepted, and the amount. -/
def negotiate (input : DataPurchase) (base : JsString) : Exec (Requirements × ℚ) := do
  let unpaid ← perform .fetchUnpaid
  if unpaid.status ≠ 402 then fail "Provider did not return an x402 payment challenge."
  else match unpaid.header with
    | none => fail "Missing or oversized x402 challenge."
    | some header =>
      if header = [] ∨ 24000 < header.length then fail "Missing or oversized x402 challenge."
      else do
        let required ← Prog.ofExcept (E.decodePaymentRequiredHeader header)
        match required.accepts with
        | [requirements] =>
          if required.x402Version ≠ 2 ∨
              required.resourceUrl ≠ some (base ++ js "evidence/" ++ input.providerId) then
            fail "Unexpected x402 protocol, resource or payment alternatives."
          else do
            let supported ← perform .fetchSupported
            match supported with
            | none => fail "Blocky402 does not advertise native Hedera testnet support."
            | some feePayer => do
              let amount ← Prog.ofExcept
                (validatePaymentRequirements requirements input E.payTo feePayer)
              if feePayer = E.accountId ∨ feePayer = E.payTo then
                fail "Payer, payee and facilitator must be distinct."
              else do
                perform .decodeKey
                pure (requirements, amount)
        | _ => fail "Unexpected x402 protocol, resource or payment alternatives."

/-- What a call makes of the journal that it has read. -/
def purchaseAfter (input : DataPurchase) (repos : List JsString) (base : JsString) :
    File → Exec PurchaseResult
  | .content existing =>
    if existing.fingerprint ≠ E.fingerprint input then
      fail "Purchase idempotency key was reused with different terms."
    else match existing.result with
      | some result => pure result
      | none => fail "Purchase already attempted; reconcile the recorded intent before any retry."
  | .partial_ => throw .other
  | .absent => do
    let negotiated ← negotiate E input base
    pay E input repos negotiated.2 negotiated.1

/-- `purchaseHederaData(input, credentials)` -/
def purchaseHederaData (input : DataPurchase) : Exec PurchaseResult := do
  assertMandateActive E input.mandateExpiresAt
  let repos ← Prog.ofExcept (validateRepos E.texts (.arr (input.repos.map .str)))
  if isIdentity [95, 58, 45] input.requestId = false ∨ isIdentity [95, 45] input.runId = false ∨
      providerIds.contains input.providerId = false then
    fail "Invalid purchase identity."
  else do
    let base ← Prog.ofExcept E.base
    if isAccount E.accountId = false ∨ E.privateKey = [] ∨ isAccount E.payTo = false ∨
        E.payTo = E.accountId then
      fail "Configure distinct Hedera testnet payer and recipient accounts in the broker."
    else do
      perform .mkdir
      let file ← perform .readJournal
      purchaseAfter E input repos base file

end Hedera

end Obolos
