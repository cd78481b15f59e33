import Obolos.Js.BigInt
import Obolos.Runs.Evidence
import Obolos.Runs.Turns

/-!
# The gateway of a mandated job

`execution.ts`, `validateSignedMandate` of `execution-contracts.ts`: `createMandatedGateway` checks
the signed mandate of a job again at every capability, and lets each paid call of the base gateway
happen once, in the order purchase, report, verification.

Any number of calls of the capabilities run at the same time.  They interleave where the code
awaits something; what is between two awaits is one effect here, such as `Effect.startData`, which
checks a request, sets the flag and calls the base gateway.
-/

namespace Obolos

namespace Mandated

open Json
open Runs (Context DataPurchase VerificationService Turn RunInput joinLines)

/-! ### Mandates and jobs -/

/-- `SignedMandate` -/
structure SignedMandate where
  id : JsString
  agentId : JsString
  owner : JsString
  origin : JsString
  repos : List JsString
  allowedProviders : List JsString
  dataBudgetAtomic : ℕ
  verificationBudgetAtomic : ℕ
  maxDataUnitPriceAtomic : ℕ
  maxRuns : ℕ
  expiresAt : JsString
  verificationService : Option VerificationService
  message : JsString
  signature : JsString

/-- `RunnerJob` -/
structure RunnerJob where
  id : JsString
  agentId : JsString
  repos : List JsString
  mandate : SignedMandate

/-- `RunnerPins` -/
structure RunnerPins where
  origin : JsString
  agentId : JsString
  owner : JsString

variable (C : Context)

/-- `repositoryScope` -/
def repositoryScope (repos : List JsString) : Bool :=
  decide (1 ≤ repos.length ∧ repos.length ≤ 3) && repos.all Runs.Evidence.isRepo &&
    decide ((repos.map JsString.toLowerCase).Nodup)

/-- The origin of a web address, and nothing else. -/
def isOrigin (origin : JsString) : Bool :=
  (C.host.url origin).any fun url =>
    url.origin = origin && [js "http:", js "https:"].contains url.protocol

/-- `z.array(z.enum(['repo-standard', 'repo-economy'])).min(1).max(2)`, without repetitions -/
def providerScope (providers : List JsString) : Bool :=
  decide (1 ≤ providers.length ∧ providers.length ≤ 2) &&
    providers.all (fun p => [js "repo-standard", js "repo-economy"].contains p) &&
      decide providers.Nodup

/-- What the schema makes of the service: its name is trimmed, and `z.url()` trims its addresses. -/
def parsedService (service : VerificationService) : VerificationService :=
  { service with
    name := service.name.trim
    endpoint := service.endpoint.trim
    providerEndpoint := service.providerEndpoint.map JsString.trim }

/-- What the schema makes of the mandate. -/
def SignedMandate.parsed (m : SignedMandate) : SignedMandate :=
  { m with
    origin := m.origin.trim
    verificationService := m.verificationService.map parsedService }

/-- `mandateFieldsSchema` -/
def mandateFieldsSchema (m : SignedMandate) : Bool :=
  C.host.isUuid m.id && C.host.isUuid m.agentId && (readHex 40 m.owner).isSome &&
    isOrigin C m.origin.trim && repositoryScope m.repos && providerScope m.allowedProviders &&
      decide (1 ≤ m.dataBudgetAtomic ∧ m.dataBudgetAtomic ≤ 100000000) &&
        decide (1 ≤ m.verificationBudgetAtomic ∧ m.verificationBudgetAtomic ≤ 1000000) &&
          decide (1 ≤ m.maxDataUnitPriceAtomic ∧ m.maxDataUnitPriceAtomic ≤ 100000000) &&
            decide (1 ≤ m.maxRuns ∧ m.maxRuns ≤ 10) && C.isDatetime m.expiresAt &&
              m.verificationService.all fun s => (parsedService s).valid C.toPlatform

/-- `signedMandateSchema` -/
def signedMandateSchema (m : SignedMandate) : Bool :=
  mandateFieldsSchema C m && decide (m.message.length ≤ 5000) && (readHex 130 m.signature).isSome

/-- `mandateMessage(m)` -/
def mandateMessage (m : SignedMandate) : JsString :=
  let version := match m.verificationService with
    | none => js "v1"
    | some service => if service.providerEndpoint.isSome then js "v3" else js "v2"
  let strings (l : List JsString) := stringify C.host.numerals (.arr (l.map .str))
  joinLines ([js "Obolos isolated runner spending mandate " ++ version,
    js "Origin: " ++ m.origin, js "Mandate: " ++ m.id, js "Agent: " ++ m.agentId,
    js "Owner: " ++ m.owner.toLowerCase, js "Signing provenance: wallet",
    js "Repositories: " ++ strings m.repos,
    js "Allowed providers: " ++ strings m.allowedProviders,
    js "Maximum HBAR atomic units per repository: " ++ C.number m.maxDataUnitPriceAtomic,
    js "HBAR atomic units per run: " ++ C.number m.dataBudgetAtomic,
    js "USDC atomic units per run: " ++ C.number m.verificationBudgetAtomic,
    js "Maximum runs: " ++ C.number m.maxRuns,
    js "Total HBAR atomic units: " ++ C.number (C.amount m.dataBudgetAtomic m.maxRuns),
    js "Total USDC atomic units: " ++ C.number (C.amount m.verificationBudgetAtomic m.maxRuns)] ++
    (match m.verificationService with
      | none => []
      | some service =>
        [js "Verification service: " ++ stringify C.host.numerals service.json]) ++
    [js "Expires: " ++ m.expiresAt, js "Network scope: Hedera testnet and Arc testnet only.",
      js "I authorize my paired runner to execute only this scope. This is spending approval, not an identity login."])

/-- The service has the endpoint of the marketplace, and its price is within the budget. -/
def SignedMandate.coversService (m : SignedMandate) : Bool :=
  m.verificationService.all fun service =>
    service.endpoint = m.origin ++ js "/api/market/services/" ++ service.id &&
      decide (service.priceAtomic ≤ m.verificationBudgetAtomic)

/-- `m.verificationService?.priceAtomic ?? 50000` -/
def SignedMandate.verificationPrice (m : SignedMandate) : ℕ :=
  match m.verificationService with
  | none => 50000
  | some service => service.priceAtomic

/-! ### The state of the gateway -/

/-- The report of a request: its evidence, and the rest. -/
structure Report where
  evidence : List Json
  rest : Json

/-- `VerificationPurchase` -/
structure VerificationPurchase where
  runId : JsString
  requestId : JsString
  maxAmountAtomic : ℚ
  report : Report
  mandateExpiresAt : JsString

/-- The variables that the capabilities share. -/
structure Guard where
  dataStarted : Bool
  reportStarted : Bool
  verificationStarted : Bool
  purchased : Option (List Json)

/-- What happened at the base gateway: a paid call, with the time of the last check of the mandate by
its caller, or the return of the purchase. -/
inductive BaseCall
  | purchaseData (request : DataPurchase) (checkedAt : Option ℤ)
  | purchased (evidence : List Json)
  | generateReport (evidence : List Json) (runId : JsString) (checkedAt : Option ℤ)
  | verify (request : VerificationPurchase) (market : Option SignedMandate) (checkedAt : Option ℤ)

/-- The shared variables, when each caller read the clock last, who purchases the data, and what
happened at the base gateway. -/
structure World (ι : Type) where
  guard : Guard
  seen : ι → Option ℤ
  buyer : Option ι
  calls : List BaseCall

/-- A new gateway. -/
def World.new (ι : Type) : World ι := ⟨⟨false, false, false, none⟩, fun _ => none, none, []⟩

/-- What the code awaits, and what it does between two awaits. -/
inductive Effect
  /-- `new Date()` -/
  | now
  | verifyMessage (address message signature : JsString)
  | authorize
  | discover
  /-- Check the request and call `base.purchaseData(request)`. -/
  | startData (request : DataPurchase)
  /-- The answer of the base gateway, which is kept. -/
  | purchased
  /-- Check the arguments and call `base.generateReport(evidence, runId)`. -/
  | startReport (evidence : List Json) (runId : JsString)
  | summary
  /-- Check the request and call `base.verify(…)`. -/
  | startVerify (request : VerificationPurchase)
  | verified

/-- What the code is answered. -/
abbrev Answer : Effect → Type
  | .now => ℤ
  | .verifyMessage _ _ _ => Bool
  | .discover => Json
  | .purchased => List Json × Json
  | .summary => JsString
  | .verified => Json
  | _ => Unit

/-- The code of the gateway. -/
abbrev Exec (α : Type) := Prog Effect Answer JsError α

/-- One effect. -/
def await (o : Effect) : Exec (Answer o) := Prog.await o

/-- `throw new Error(message)` -/
def refuse {α : Type} (message : String) : Exec α := throw (.error (js message))

/-! ### The checks -/

/-- `validateSignedMandate(m, pins)` -/
def validateSignedMandate (m : SignedMandate) (pins : RunnerPins) : Exec Bool := do
  if signedMandateSchema C m = false then return false
  else do
    let now ← await .now
    let expiry := C.host.dateParse m.expiresAt
    if m.owner.toLowerCase ≠ pins.owner.toLowerCase ∨ m.agentId ≠ pins.agentId ∨
        m.parsed.origin ≠ pins.origin ∨ expiry.any (fun e => e ≤ now) ∨
        expiry.any (fun e => e > now + 86400000) ∨ m.message ≠ mandateMessage C m.parsed then
      return false
    else if m.parsed.coversService = false then return false
    else tryCatch (await (.verifyMessage m.owner m.message m.signature)) fun _ => return false

/-- `validateJob(job, pins)` -/
def validateJob (job : RunnerJob) (pins : RunnerPins) : Exec Unit := do
  if C.host.isUuid job.id = false ∨ job.agentId ≠ pins.agentId ∨
      repositoryScope job.repos = false then
    refuse "Runner rejected the job identity or signed mandate."
  else do
    let signed ← validateSignedMandate C job.mandate pins
    if signed = false then refuse "Runner rejected the job identity or signed mandate."
    else if job.repos.any (fun repo => !job.mandate.repos.contains repo) then
      refuse "Job repositories are outside the signed mandate."
    else return ()

section Gateway

variable (job : RunnerJob)

/-- `identity(runId, requestId, kind, expires)` -/
def identity (runId requestId : JsString) (kind : String) (expires : JsString) : Bool :=
  runId = job.id && requestId = job.id ++ js ":" ++ js kind && expires = job.mandate.expiresAt

/-- `JSON.stringify(evidence)` -/
def evidenceText (evidence : List Json) : JsString := stringify C.host.numerals (.arr evidence)

/-- `JSON.stringify(repos)` -/
def reposText (repos : List JsString) : JsString := evidenceText C (repos.map .str)

/-- `purchaseData` between the check of the mandate and the call of the base gateway. -/
def startData (request : DataPurchase) (g : Guard) : Except JsError Guard :=
  if identity job request.runId request.requestId "data" request.mandateExpiresAt = false then
    JsError.raise "Capability identity does not match the signed job."
  else if g.dataStarted ∨ reposText C request.repos ≠ reposText C job.repos ∨
      request.providerId ∉ job.mandate.allowedProviders ∨
      Runs.isSafeInteger request.unitPriceAtomic = false ∨ request.unitPriceAtomic ≤ 0 ∨
      request.unitPriceAtomic > job.mandate.maxDataUnitPriceAtomic ∨
      request.maxAmountAtomic ≠ C.amount request.unitPriceAtomic job.repos.length ∨
      request.maxAmountAtomic > job.mandate.dataBudgetAtomic then
    JsError.raise "Data purchase exceeds or differs from the signed scope, or was already attempted."
  else .ok { g with dataStarted := true }

/-- `generateReport` between the check of the mandate and the call of the base gateway. -/
def startReport (evidence : List Json) (runId : JsString) (g : Guard) : Except JsError Guard :=
  if runId ≠ job.id ∨
      g.purchased.all (fun purchased => evidenceText C purchased ≠ evidenceText C evidence) ∨
      g.reportStarted then
    JsError.raise "Report capability does not match the purchased evidence or was already attempted."
  else .ok { g with reportStarted := true }

/-- `verify` between the check of the mandate and the call of the base gateway. -/
def startVerify (request : VerificationPurchase) (g : Guard) : Except JsError Guard :=
  if identity job request.runId request.requestId "verify" request.mandateExpiresAt = false then
    JsError.raise "Capability identity does not match the signed job."
  else if g.verificationStarted ∨ g.reportStarted = false ∨
      g.purchased.all
        (fun purchased => evidenceText C request.report.evidence ≠ evidenceText C purchased) ∨
      request.maxAmountAtomic ≠ job.mandate.verificationPrice ∨
      request.maxAmountAtomic > job.mandate.verificationBudgetAtomic then
    JsError.raise "Verification exceeds or differs from the signed scope, or was already attempted."
  else .ok { g with verificationStarted := true }

/-! ### The capabilities -/

variable (pins : RunnerPins) (authorize : Bool)

/-- `allowed(paid)`; `authorize` tells whether there is such a function. -/
def allowed (paid : Bool) : Exec Unit := do
  validateJob C job pins
  if paid && authorize then do
    await .authorize
    validateJob C job pins
  else return ()

/-- What the capabilities return. -/
inductive Result
  | providers (providers : Json)
  | data (evidence : List Json) (receipt : Json)
  | summary (summary : JsString)
  | verification (result : Json)

/-- `discover()` -/
def discover : Exec Result := do
  allowed C job pins authorize false
  let providers ← await .discover
  return .providers providers

/-- `purchaseData(request)` -/
def purchaseData (request : DataPurchase) : Exec Result := do
  allowed C job pins authorize true
  await (.startData request)
  let result ← await .purchased
  return .data result.1 result.2

/-- `generateReport(evidence, runId)` -/
def generateReport (evidence : List Json) (runId : JsString) : Exec Result := do
  allowed C job pins authorize true
  await (.startReport evidence runId)
  let summary ← await .summary
  return .summary summary

/-- `verify(request)` -/
def verify (request : VerificationPurchase) : Exec Result := do
  allowed C job pins authorize true
  await (.startVerify request)
  let result ← await .verified
  return .verification result

/-- The calls that `createMandatedGateway(job, pins, base, authorize)` offers. -/
inductive Capability
  | discover
  | purchaseData (request : DataPurchase)
  | generateReport (evidence : List Json) (runId : JsString)
  | verify (request : VerificationPurchase)

/-- The code of a call. -/
def Capability.run : Capability → Exec Result
  | .discover => Mandated.discover C job pins authorize
  | .purchaseData request => Mandated.purchaseData C job pins authorize request
  | .generateReport evidence runId => Mandated.generateReport C job pins authorize evidence runId
  | .verify request => Mandated.verify C job pins authorize request

/-! ### What the effects do -/

variable {ι : Type} [DecidableEq ι]

/-- A call of the base gateway, when its checks pass. -/
def enter (d : World ι) (checked : Except JsError Guard) (buyer : Option ι) (call : BaseCall) :
    Except JsError Unit × World ι :=
  match checked with
  | .ok g => (.ok (), { d with guard := g, buyer := buyer, calls := d.calls ++ [call] })
  | .error e => (.error e, d)

/-- What an effect of caller `i` answers and does.  The base gateway, `verifyMessage` and `authorize`
answer anything. -/
def sem (i : ι) (d : World ι) : (o : Effect) → Except JsError (Answer o) → World ι → Prop
  | .now, r, d' => ∃ time, r = .ok time ∧ d' = { d with seen := Function.update d.seen i (some time) }
  | .startData request, r, d' =>
    (r, d') = enter d (startData C job request d.guard) (some i)
      (.purchaseData request (d.seen i))
  | .purchased, r, d' => (∃ e, r = .error e ∧ d' = d) ∨ ∃ result, r = .ok result ∧ d' = { d with
      guard := { d.guard with purchased := some result.1 }
      calls := d.calls ++ [.purchased result.1] }
  | .startReport evidence runId, r, d' =>
    (r, d') = enter d (startReport C job evidence runId d.guard) d.buyer
      (.generateReport evidence runId (d.seen i))
  | .startVerify request, r, d' =>
    (r, d') = enter d (startVerify C job request d.guard) d.buyer
      (.verify request (job.mandate.verificationService.map fun _ => job.mandate) (d.seen i))
  | _, _, d' => d' = d

/-- The calls of the capabilities of one gateway. -/
def gateway (ι : Type) [DecidableEq ι] : System ι (World ι) Effect Answer JsError Result where
  sem := sem C job
  starts _ _ p := ∃ capability : Capability, p = capability.run C job pins authorize
  env _ _ _ := False

end Gateway

end Mandated

end Obolos
