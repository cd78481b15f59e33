import Obolos.Runs.Contracts
import Obolos.Crash.Method
import Mathlib.Data.List.Dedup

/-!
# The engine

`engine.ts`, and `assessQuote` of `policy.ts`: the actions on a run.  An action is a method of the
run, which it changes in place; `advanceRun` does one stage and turns every exception into the
status `failed`, the other actions throw before they change anything.

The clock, the identifiers and the gateway are effects; so are, for later, the file of `RunStore`
and the table of `NeonDemoStore`.
-/

namespace Obolos

namespace Runs

open Json Method

/-- The effects. -/
inductive Effect
  /-- `Date.now()` and `new Date()` -/
  | now
  | randomUUID
  -- the gateway, called for a run
  | discover (runId : JsString)
  | purchaseData (purchase : DataPurchase)
  | generateReport (runId : JsString) (evidence : List RepoEvidence)
  | verify (purchase : VerificationPurchase)
  -- `runs.json`
  | readRuns
  | writeRuns (records : List StoredRun)
  -- `platform_demo_runs`
  | insertRow (owner : JsString) (run : Run)
  | selectRow (owner id : JsString)
  | claimRow (owner id marker : JsString)
  | saveFailed (owner id marker : JsString) (run : Run)
  | saveResult (owner id marker : JsString) (run : Run)

/-- The answers. -/
abbrev Answer : Effect → Type
  | .now => ℤ
  | .randomUUID => JsString
  | .discover _ => List Provider
  | .purchaseData _ => List RepoEvidence × Receipt
  | .generateReport _ _ => JsString
  | .verify _ => Receipt × Option (List Check)
  | .readRuns => List StoredRun
  | .writeRuns _ => Unit
  | .insertRow _ _ => Bool
  | .selectRow _ _ => Option Run
  | .claimRow _ _ _ => Option Run
  | .saveFailed _ _ _ _ => Unit
  | .saveResult _ _ _ _ => Bool

/-- Programs with these effects. -/
abbrev Exec (α : Type) := Prog Effect Answer JsError α

/-- Methods of a run. -/
abbrev Engine (α : Type) := Method Effect Answer JsError Run α

/-- Where the engine runs: the platform, the environment of the process, and the order of keys in
the objects that the store hands out. -/
structure Context extends Platform, ProcessEnv where
  layout : Json → Json

/-- `throw new Error(message)` -/
def fail {α : Type} (message : String) : Engine α := throw (.error (js message))

/-- `if(bad) throw new Error(message)` -/
def refuse (bad : Prop) [Decidable bad] (message : String) : Engine Unit :=
  onlyIf bad (fail message)

/-- `error instanceof Error ? error.message : 'The operation failed.'` -/
def errorMessage : JsError → JsString
  | .error message => message
  | .status message _ => message
  | .zod => js "The operation failed."
  | .other => js "The operation failed."

/-- `requireLiveRun(run)` -/
def requireLiveRun : Engine Unit := do
  let run ← self
  refuse (run.mode ≠ .live)
    "Historical rehearsal records are read-only. Create a live workspace job."

section Actions

variable (C : Context)

/-- A number in a text. -/
def Context.number (q : ℚ) : JsString := C.host.numerals.text q

/-- `q / divisor` -/
def Context.quotient (q divisor : ℚ) : ℚ := C.arithmetic.round (q / divisor)

/-- `price * units` -/
def Context.amount (price units : ℚ) : ℚ := C.arithmetic.round (price * units)

/-- `p + q` -/
def Context.sum (p q : ℚ) : ℚ := C.arithmetic.round (p + q)

/-- `log(run, actor, kind, title, detail)` -/
def log (actor : Actor) (kind : Kind) (title detail : JsString) : Engine Unit := do
  let id ← await .randomUUID
  let timestamp ← await .now
  modify fun run => { run with
    events := appendAudit C.host.numerals C.sha run.events id (C.isoString timestamp) actor kind
      title detail }
  let updatedAt ← await .now
  modify fun run => { run with updatedAt := C.isoString updatedAt }

/-! ### Quotes -/

/-- The result of `assessQuote`. -/
structure Assessment where
  allowed : Bool
  code : JsString
  reason : JsString

/-- `deny(code, reason)` -/
def deny (code reason : String) : Assessment := ⟨false, js code, js reason⟩

/-- Whether the amounts of a quote are those of a payment. -/
def validQuote (p : Provider) (units : ℕ) (spent : ℚ) : Bool :=
  decide (1 ≤ units ∧ units ≤ 3) && isSafeInteger p.unitPriceAtomic &&
    decide (0 < p.unitPriceAtomic) && isSafeInteger spent && decide (0 ≤ spent) &&
      isSafeInteger (C.sum (C.amount p.unitPriceAtomic units) spent)

/-- `!Number.isFinite(Date.parse(text)) || Date.parse(text) <= Date.now()` -/
def isOver (text : JsString) : Engine Bool :=
  match C.host.dateParse text with
  | none => pure true
  | some time => do
    let now ← await .now
    return decide (time ≤ now)

/-- `assessQuote(m, p, units, spent)` -/
def assessQuote (m : Mandate) (p : Provider) (units : ℕ) (spent : ℚ) : Engine Assessment := do
  if !validQuote C p units spent then return deny "invalid" "Invalid quote units or amount."
  if ← isOver C m.expiresAt then return deny "expired" "The spending mandate has expired."
  if p.network ≠ js "hedera:testnet" ∨ p.asset ≠ js "HBAR" then
    return deny "network" "Only HBAR on Hedera testnet is approved."
  if p.id ∉ m.allowedProviders then
    return deny "provider" "This provider is outside the approved mandate."
  if p.unitPriceAtomic > m.maxDataUnitPriceAtomic then
    return deny "price" "The provider quote exceeds the approved price per repository."
  if C.sum spent (C.amount p.unitPriceAtomic units) > m.dataBudgetAtomic then
    return deny "budget" "The purchase would exceed the remaining HBAR allowance."
  return ⟨true, js "approved",
    js "Provider, unit price, expiry and total budget are within mandate."⟩

/-- The order of `sort((a, b) => a.unitPriceAtomic - b.unitPriceAtomic)`. -/
def cheaper (a b : Provider) : Prop := a.unitPriceAtomic ≤ b.unitPriceAtomic

instance : DecidableRel cheaper := fun a b =>
  inferInstanceAs (Decidable (a.unitPriceAtomic ≤ b.unitPriceAtomic))

/-- The providers on the allowlist, the cheapest first. -/
def Run.eligible (run : Run) : List Provider :=
  (run.providers.filter fun p => p.id ∈ run.mandate.allowedProviders).insertionSort cheaper

/-- `eligible.find(p => assessQuote(…).allowed)` -/
def findApproved (run : Run) : List Provider → Engine (Option Provider)
  | [] => pure none
  | p :: rest => do
    let assessment ← assessQuote C run.mandate p run.repos.length run.dataSpentAtomic
    if assessment.allowed then return some p
    findApproved run rest

/-! ### Approvals -/

/-- `lines.join('\n')` -/
def joinLines (lines : List JsString) : JsString := List.intercalate [10] lines

/-- The message a controller signs. -/
def approvalMessage (run : Run) (signerMode : SignerMode) (nonce expiresAt : JsString)
    (proposed : Mandate) : JsString :=
  joinLines ([js "Obolos mandate authorization",
    js "Purpose: approve spending limits only; this does not sign a token transfer.",
    js "Run: " ++ run.id, js "Mode: " ++ run.mode.text] ++
    (if run.mode = .live ∧ signerMode = .speculos then
      [js "Signer: Speculos emulator (development only; not physical hardware)"] else []) ++
    [js "Nonce: " ++ nonce, js "Approval expires: " ++ expiresAt,
      js "Previous mandate version: " ++ C.number run.mandate.version,
      js "New mandate: " ++ stringify C.host.numerals (C.layout proposed.json)])

/-- The mandate that allows a quote. -/
def Run.proposal (run : Run) (p : Provider) (expiresAt : JsString) : Mandate :=
  { run.mandate with
    version := run.mandate.version + 1
    maxDataUnitPriceAtomic := max run.mandate.maxDataUnitPriceAtomic p.unitPriceAtomic
    dataBudgetAtomic := max run.mandate.dataBudgetAtomic
      (C.sum run.dataSpentAtomic (C.amount p.unitPriceAtomic run.repos.length))
    expiresAt := expiresAt }

/-- `process.env.LEDGER_SIGNER_MODE === 'speculos' ? 'speculos' : 'usb'` -/
def Context.signerMode : SignerMode :=
  if C.LEDGER_SIGNER_MODE = some (js "speculos") then .speculos else .usb

/-- `requestApproval(run, p, reason)` -/
def requestApproval (p : Provider) (reason : JsString) : Engine Unit := do
  let run ← self
  let mandateTime ← await .now
  let proposed := run.proposal C p (C.isoString (mandateTime + 3600000))
  let nonce ← await .randomUUID
  let time ← await .now
  let expiresAt := C.isoString (time + 300000)
  modify fun run => { run with
    approval := some {
      nonce, expiresAt, reason
      message := approvalMessage C run C.signerMode nonce expiresAt proposed
      proposedMandate := proposed
      signerMode := if run.mode = .live then some C.signerMode else none }
    status := .awaitingApproval }
  log C .planner .blocked (js "Human approval required") reason

/-! ### The stages -/

/-- Whether a receipt is that of a payment. -/
def Receipt.isFor (r : Receipt) (run : Run) (requestId network : JsString) (amount : ℚ) : Prop :=
  r.mode = run.mode.text ∧ r.requestId = requestId ∧ r.network = network ∧
    r.asset = (if network = js "hedera:testnet" then js "HBAR" else js "USDC") ∧
      r.amountAtomic = amount

instance (r : Receipt) (run : Run) (requestId network : JsString) (amount : ℚ) :
    Decidable (r.isFor run requestId network amount) :=
  inferInstanceAs (Decidable (_ ∧ _ ∧ _ ∧ _ ∧ _))

/-- Whether a receipt is that of a confirmed transfer. -/
def Receipt.settled (r : Receipt) : Bool :=
  r.status = js "settled" && r.transactionId.getD [] ≠ []

/-- `validateReceipt(run, r, requestId, network, amount)` -/
def validateReceipt (r : Receipt) (requestId network : JsString) (amount : ℚ) : Engine Unit := do
  let run ← self
  refuse (¬ r.isFor run requestId network amount) "Receipt does not match the authorized payment."
  refuse (run.mode = .live ∧ r.settled = false) "No confirmed live settlement was returned."

/-- `Date.parse(text) <= Date.now()` -/
def isPast (text : JsString) : Engine Bool :=
  match C.host.dateParse text with
  | none => pure false
  | some time => do
    let now ← await .now
    return decide (time ≤ now)

/-- The stage `mandate`. -/
def acceptMandate : Engine Unit := do
  log C .broker .success (js "Mandate accepted") (js "Only named services can receive requests. Wallet and provider credentials remain outside the agent.")
  modify fun run => { run with stage := .discovery }

/-- The stage `discovery`. -/
def discoverServices : Engine Unit := do
  let run ← self
  let providers ← await (.discover run.id)
  modify fun run => { run with providers := providers }
  let run ← self
  match run.eligible with
  | [] => fail "No discoverable provider is on the allowlist."
  | first :: rest =>
    modify fun run => { run with selectedProvider := some first.id, stage := .purchase }
    log C .planner .success (js "Services discovered")
      (js "Selected " ++ first.name ++ js " at " ++
        C.number (C.quotient first.unitPriceAtomic 100000000) ++ js " HBAR per repository from " ++
          C.number (first :: rest).length ++ js " approved quotes.")

/-- Whether the purchased evidence covers the repositories of the run. -/
def Run.covered (run : Run) (evidence : List RepoEvidence) : Bool :=
  evidence.length = run.repos.length && evidence.all (fun e => e.repo ∈ run.repos) &&
    (evidence.map RepoEvidence.repo).dedup.length = run.repos.length

/-- Pay for the data of an approved provider. -/
def payForData (approved : Provider) : Engine Unit := do
  let run ← self
  onlyIf (run.selectedProvider ≠ some approved.id)
    (log C .planner .warning (js "Provider rerouted")
      (js "Selected " ++ approved.name ++ js " because its current quote fits the mandate."))
  modify fun run => { run with selectedProvider := some approved.id }
  let requestId := run.id ++ js ":data"
  let amount := C.amount approved.unitPriceAtomic run.repos.length
  log C .broker .info (js "Payment authorized")
    (js "Request " ++ requestId ++ js ": " ++ C.number amount ++ js " tinybar for " ++
      C.number run.repos.length ++ js " repository units. A failed or uncertain transfer is never automatically repeated.")
  let result ← await (Effect.purchaseData {
    runId := run.id, requestId := requestId, repos := run.repos, providerId := approved.id
    maxAmountAtomic := amount, unitPriceAtomic := approved.unitPriceAtomic
    mandateExpiresAt := run.mandate.expiresAt })
  let evidence : List RepoEvidence := result.1
  let receipt : Receipt := result.2
  validateReceipt receipt requestId (js "hedera:testnet") amount
  refuse (run.covered evidence = false)
    "Purchased evidence does not cover the requested repositories."
  modify fun run => { run with
    evidence := evidence
    receipts := run.receipts ++ [receipt]
    dataSpentAtomic := C.sum run.dataSpentAtomic amount
    stage := .report }
  log C .broker .success (js "Hedera payment settled")
    (C.number (C.quotient amount 100000000) ++ js " HBAR purchased " ++
      C.number evidence.length ++ js " source records. " ++
        receipt.transactionId.getD (js "undefined"))

/-- The stage `purchase`. -/
def purchaseStage : Engine Unit := do
  let run ← self
  -- live quotes are refreshed just before the payment
  onlyIf (run.mode = .live) do
    let providers ← await (.discover run.id)
    modify fun run => { run with providers := providers }
  let run ← self
  match ← findApproved C run run.eligible with
  | some approved => payForData C approved
  | none =>
    match run.eligible with
    | [] => fail "No approved provider is available."
    | first :: _ => do
      let assessment ←
        assessQuote C run.mandate first run.repos.length run.dataSpentAtomic
      requestApproval C first assessment.reason

/-- The stage `report`. -/
def draftReport : Engine Unit := do
  let run ← self
  let summary ← await (.generateReport run.id run.evidence)
  let createdAt ← await .now
  modify fun run => { run with
    report := some {
      title := run.title, summary := summary, evidence := run.evidence
      createdAt := C.isoString createdAt, checks := [], verified := false }
    stage := .verification }
  log C .worker .success (js "Report drafted")
    (js "Model-generated analysis grounded in " ++ C.number run.evidence.length ++
      js " purchased records. Source-integrity and structural checks are still pending.")

/-- `checkReport(report)` -/
def checkReport (report : Report) : List Check :=
  let records := report.evidence
  let count (n : ℚ) := isSafeInteger n && decide (0 ≤ n)
  [⟨js "Source coverage",
      decide (0 < records.length) &&
        (records.map RepoEvidence.repo).dedup.length = records.length,
      C.number records.length ++ js " distinct repository records are attached."⟩,
    ⟨js "Source attribution",
      records.all fun x => x.sourceUrl = js "https://api.github.com/repos/" ++ x.repo,
      js "Every record points to its exact GitHub API source."⟩,
    ⟨js "Valid observed counts",
      records.all fun x => count x.stars && count x.forks && count x.openIssues,
      js "Stars, forks and issue counts are non-negative integers."⟩,
    ⟨js "Observation timestamps",
      records.all fun x =>
        (C.host.dateParse x.fetchedAt).isSome && (C.host.dateParse x.pushedAt).isSome,
      js "Each observation includes fetch and last-push timestamps."⟩]

/-- `run.mandate.verificationService?.priceAtomic ?? 50000` -/
def Mandate.verificationPrice (m : Mandate) : ℚ :=
  match m.verificationService with
  | none => 50000
  | some service => service.priceAtomic

/-- The stage `verification`. -/
def verifyReport : Engine Unit := do
  let run ← self
  let amount := run.mandate.verificationPrice
  refuse (C.sum run.verificationSpentAtomic amount > run.mandate.verificationBudgetAtomic)
    "Verification would exceed the USDC allowance. No payment was made."
  match run.report with
  | none => fail "No report is ready to verify."
  | some report =>
    let requestId := run.id ++ js ":verify"
    let result ← await (Effect.verify {
      runId := run.id, requestId := requestId, maxAmountAtomic := amount, report := report
      mandateExpiresAt := run.mandate.expiresAt })
    let receipt : Receipt := result.1
    let checks : List Check := result.2.getD []
    validateReceipt receipt requestId (js "arc:testnet") amount
    modify fun run => { run with
      receipts := run.receipts ++ [receipt]
      verificationSpentAtomic := C.sum run.verificationSpentAtomic amount }
    refuse (run.mode = .live ∧ checks = [])
      "The paid verifier did not return its evidence checks."
    let all := checkReport C report ++ checks
    let verified := all.all Check.passed
    modify fun run => { run with
      report := some { report with checks := all, verified := verified } }
    refuse (verified = false)
      "The paid verification found invalid evidence. Review the recorded receipt and failed checks."
    modify fun run => { run with stage := .complete, status := .completed }
    log C .verifier .success (js "Evidence checked · job complete")
      (C.number all.length ++ js " structural/source checks passed. Narrative judgment is not independently certified. Arc USDC settlement confirmed.")

/-! ### The actions -/

/-- The body of `try` in `advanceRun`. -/
def advanceStage : Engine Unit := do
  let run ← self
  let expired ← isPast C run.mandate.expiresAt
  refuse expired "Mandate expired. Start a new job with a fresh allowance."
  match run.stage with
  | .mandate => acceptMandate C
  | .discovery => discoverServices C
  | .purchase => purchaseStage C
  | .report => draftReport C
  | .verification => verifyReport C
  | .complete => pure ()

/-- The `catch` of `advanceRun`. -/
def stopRun (error : JsError) : Engine Unit := do
  modify fun run => { run with status := .failed, error := some (errorMessage error) }
  log C .broker .blocked (js "Run stopped") (errorMessage error)

/-- The statuses in which `advanceRun` does nothing. -/
def RunStatus.rests (status : RunStatus) : Prop :=
  status = .completed ∨ status = .failed ∨ status = .paused ∨ status = .awaitingApproval

instance (status : RunStatus) : Decidable status.rests :=
  inferInstanceAs (Decidable (_ ∨ _ ∨ _ ∨ _))

/-- `advanceRun(run, gateway)` -/
def advanceRun : Engine Unit := do
  requireLiveRun
  let run ← self
  if run.status.rests then return
  modify fun run => { run with status := .running }
  tryCatch (advanceStage C) (stopRun C)

/-- `applyShock(run, liveQuotes)` -/
def applyShock (liveQuotes : Option (List Provider)) : Engine Unit := do
  requireLiveRun
  let run ← self
  refuse (run.stage ∉ [Stage.mandate, .discovery, .purchase] ∨
      run.status ∈ [RunStatus.completed, .failed, .awaitingApproval])
    "Apply the price change before the data purchase."
  refuse (run.mode = .live ∧ liveQuotes.getD [] = [])
    "Live price changes require refreshed provider quotes."
  let providers := liveQuotes.getD []
  modify fun run => { run with providers := providers, shockApplied := true }
  log C .supervisor .warning (js "Provider price increased")
    (js "Quotes increased to " ++
      List.intercalate (js " and ") (providers.map fun p =>
        C.number (C.quotient p.unitPriceAtomic 100000000) ++ js " HBAR/repository") ++
      js ". The planner must evaluate the new prices before paying.")

/-- Whether the configured signer mode is that of the approval. -/
def signerModeMatches (a : ApprovalRequest) : Bool :=
  let configured := match C.LEDGER_SIGNER_MODE with
    | none => js "usb"
    | some [] => js "usb"
    | some mode => mode
  configured = (a.signerMode.getD .usb).text

/-- The configured controller and the signature, if both are well formed. -/
def controllerSignature (signature : Option JsString) : Option (JsString × JsString) :=
  match C.LEDGER_CONTROLLER_ADDRESS, signature with
  | some address, some signature =>
    if (readHex 40 address).isSome && (readHex 130 signature).isSome then some (address, signature)
    else none
  | _, _ => none

/-- The checks of `approveRun` on the signature of a live run. -/
def checkSignature (a : ApprovalRequest) (signature : Option JsString) : Engine Unit := do
  refuse (signerModeMatches C a = false) "Controller signer mode changed; request a new approval."
  match controllerSignature C signature with
  | none => fail "A valid Ledger controller signature is required."
  | some (address, signature) =>
    let verified ← Method.ofExcept (C.verifyMessage address a.message signature)
    refuse (verified = false) "Signature does not match the configured Ledger controller."

/-- `approveRun(run, {signature})` -/
def approveRun (signature : Option JsString) : Engine Unit := do
  requireLiveRun
  let run ← self
  match run.approval with
  | none => fail "There is no pending approval."
  | some a =>
    refuse (run.status ≠ .awaitingApproval) "There is no pending approval."
    let expired ← isPast C a.expiresAt
    refuse expired "Approval expired. Reject this request and start a new job."
    refuse (a.proposedMandate.version ≠ run.mandate.version + 1)
      "The approval does not match the current mandate."
    onlyIf (run.mode = .live) (checkSignature C a signature)
    let verifiedAt ← await .now
    modify fun run => { run with
      authorizations := run.authorizations ++ [{
        mode := run.mode, nonce := a.nonce, message := a.message
        verifiedAt := C.isoString verifiedAt
        previousMandate := run.mandate, approvedMandate := a.proposedMandate
        signer := if run.mode = .live then C.LEDGER_CONTROLLER_ADDRESS else none
        signature := if run.mode = .live then signature else none
        signerMode := if run.mode = .live then some (a.signerMode.getD .usb) else none }]
      mandate := a.proposedMandate
      approval := none
      status := .running }
    log C .supervisor .success (js "Controller signature verified")
      (js "Mandate version " ++ C.number a.proposedMandate.version ++ js "; nonce " ++ a.nonce ++
        js " consumed. " ++
          if a.signerMode = some .speculos then
            js "Speculos emulator signature verified; not physical hardware evidence."
          else js "Hardware provenance depends on provisioning the pinned address from the Ledger device.")

/-- `pauseRun(run)` -/
def pauseRun : Engine Unit := do
  requireLiveRun
  let run ← self
  refuse (run.status ∈ [RunStatus.failed, .completed, .awaitingApproval])
    "This run cannot be paused or resumed in its current state."
  let paused := run.status = .paused
  modify fun run => { run with status := if paused then .running else .paused }
  log C .supervisor .warning (if paused then js "Run resumed" else js "Run paused")
    (js "The next payment step follows the updated run state. Settled transfers are not reversed.")

/-- The actions. -/
inductive RunAction
  | advance
  | approve (signature : Option JsString)
  | pause
  | shock (liveQuotes : Option (List Provider))

/-- The engine function of an action. -/
def RunAction.run : RunAction → Engine Unit
  | .advance => advanceRun C
  | .approve signature => approveRun C signature
  | .pause => pauseRun C
  | .shock liveQuotes => applyShock C liveQuotes

end Actions

end Runs

end Obolos
