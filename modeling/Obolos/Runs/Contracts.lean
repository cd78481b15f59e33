import Obolos.Runs.Audit
import Obolos.Js.Value

/-!
# Runs

The records of `contracts.ts` and `market/contracts.ts`, and what the code of the runs uses of the
platform.  Numbers are rationals; `Rounding` is the rounding of arithmetic on doubles.
-/

namespace Obolos

namespace Runs

open Json

/-- How the results of arithmetic are rounded: integers up to `2 ^ 53` are not. -/
structure Rounding where
  round : ℚ → ℚ
  round_int : ∀ n : ℤ, -2 ^ 53 ≤ n → n ≤ 2 ^ 53 → round n = n
  mono : ∀ {p q : ℚ}, p ≤ q → round p ≤ round q

/-- No rounding. -/
def Rounding.none : Rounding := ⟨id, fun _ _ _ => rfl, id⟩

/-- `Number.isSafeInteger(q)` -/
def isSafeInteger (q : ℚ) : Bool := q.den = 1 && decide (-(2 ^ 53 - 1) ≤ q.num ∧ q.num ≤ 2 ^ 53 - 1)

/-- What the code uses of the language and of third-party libraries. -/
structure Platform where
  host : Host
  /-- What `JSON.parse` makes of a number. -/
  readNumber : JsString → Option Json
  readNumber_text : ∀ q, readNumber (host.numerals.text q) = some (.num q)
  sha : Sha256
  arithmetic : Rounding
  /-- `new Date(time).toISOString()` -/
  isoString : ℤ → JsString
  /-- `z.iso.datetime()` -/
  isDatetime : JsString → Bool
  /-- A public HTTPS endpoint without credentials or a fragment. -/
  isPublicEndpoint : JsString → Bool
  /-- `verifyMessage({address, message, signature})` of `viem` -/
  verifyMessage : (address message signature : JsString) → Except JsError Bool

/-- The environment variables of the process. -/
structure ProcessEnv where
  LEDGER_SIGNER_MODE : Option JsString
  LEDGER_CONTROLLER_ADDRESS : Option JsString

/-- `Mode` -/
inductive Mode
  | rehearsal | live
  deriving DecidableEq

def Mode.text : Mode → JsString
  | .rehearsal => js "rehearsal"
  | .live => js "live"

/-- `RunStatus` -/
inductive RunStatus
  | ready | running | awaitingApproval | paused | completed | failed
  deriving DecidableEq

/-- `Stage` -/
inductive Stage
  | mandate | discovery | purchase | report | verification | complete
  deriving DecidableEq

def Stage.text : Stage → JsString
  | .mandate => js "mandate"
  | .discovery => js "discovery"
  | .purchase => js "purchase"
  | .report => js "report"
  | .verification => js "verification"
  | .complete => js "complete"

/-- `'usb' | 'speculos'` -/
inductive SignerMode
  | usb | speculos
  deriving DecidableEq

def SignerMode.text : SignerMode → JsString
  | .usb => js "usb"
  | .speculos => js "speculos"

/-- `VerificationService`; `providerEndpoint` is set for an external verifier. -/
structure VerificationService where
  id : JsString
  revision : ℕ
  name : JsString
  recipient : JsString
  priceAtomic : ℕ
  endpoint : JsString
  providerEndpoint : Option JsString
  deriving DecidableEq

/-- `Mandate` -/
structure Mandate where
  dataBudgetAtomic : ℚ
  maxDataUnitPriceAtomic : ℚ
  verificationBudgetAtomic : ℚ
  allowedProviders : List JsString
  expiresAt : JsString
  verificationService : Option VerificationService
  version : ℕ
  deriving DecidableEq

/-- The service as an object, with the keys in the order of its schema. -/
def VerificationService.json (service : VerificationService) : Json :=
  .obj ([(js "id", .str service.id), (js "revision", .num service.revision),
    (js "name", .str service.name), (js "recipient", .str service.recipient),
    (js "priceAtomic", .num service.priceAtomic), (js "endpoint", .str service.endpoint)] ++
      match service.providerEndpoint with
      | none => []
      | some endpoint =>
        [(js "execution", .str (js "external-repo-verifier")),
          (js "providerEndpoint", .str endpoint)])

/-- The mandate as an object, with the keys in the order in which `createRun` sets them. -/
def Mandate.json (mandate : Mandate) : Json :=
  .obj ([(js "dataBudgetAtomic", .num mandate.dataBudgetAtomic),
    (js "maxDataUnitPriceAtomic", .num mandate.maxDataUnitPriceAtomic),
    (js "verificationBudgetAtomic", .num mandate.verificationBudgetAtomic),
    (js "allowedProviders", .arr (mandate.allowedProviders.map .str)),
    (js "expiresAt", .str mandate.expiresAt)] ++
      (match mandate.verificationService with
        | none => []
        | some service => [(js "verificationService", service.json)]) ++
      [(js "version", .num mandate.version)])

/-- `Provider` -/
structure Provider where
  id : JsString
  name : JsString
  network : JsString
  asset : JsString
  unitPriceAtomic : ℚ
  deriving DecidableEq

/-- `RepoEvidence` -/
structure RepoEvidence where
  repo : JsString
  stars : ℚ
  forks : ℚ
  openIssues : ℚ
  pushedAt : JsString
  sourceUrl : JsString
  fetchedAt : JsString
  deriving DecidableEq

/-- `Receipt`, as a gateway returns it -/
structure Receipt where
  requestId : JsString
  mode : JsString
  network : JsString
  asset : JsString
  amountAtomic : ℚ
  status : JsString
  transactionId : Option JsString
  deriving DecidableEq

/-- A check of a report. -/
structure Check where
  label : JsString
  passed : Bool
  detail : JsString
  deriving DecidableEq

/-- `Report`; its `recommendation` and `generatedBy` are fixed. -/
structure Report where
  title : JsString
  summary : JsString
  evidence : List RepoEvidence
  createdAt : JsString
  checks : List Check
  verified : Bool
  deriving DecidableEq

/-- `ApprovalRequest` -/
structure ApprovalRequest where
  signerMode : Option SignerMode
  nonce : JsString
  message : JsString
  expiresAt : JsString
  proposedMandate : Mandate
  reason : JsString
  deriving DecidableEq

/-- `AuthorizationProof` -/
structure AuthorizationProof where
  mode : Mode
  nonce : JsString
  message : JsString
  verifiedAt : JsString
  previousMandate : Mandate
  approvedMandate : Mandate
  signer : Option JsString
  signature : Option JsString
  signerMode : Option SignerMode
  deriving DecidableEq

/-- `Run` -/
structure Run where
  id : JsString
  mode : Mode
  title : JsString
  repos : List JsString
  status : RunStatus
  stage : Stage
  createdAt : JsString
  updatedAt : JsString
  mandate : Mandate
  providers : List Provider
  selectedProvider : Option JsString
  dataSpentAtomic : ℚ
  verificationSpentAtomic : ℚ
  evidence : List RepoEvidence
  receipts : List Receipt
  events : List AuditEvent
  report : Option Report
  approval : Option ApprovalRequest
  shockApplied : Bool
  error : Option JsString
  authorizations : List AuthorizationProof

/-- `DataPurchase` -/
structure DataPurchase where
  runId : JsString
  requestId : JsString
  repos : List JsString
  providerId : JsString
  maxAmountAtomic : ℚ
  unitPriceAtomic : ℚ
  mandateExpiresAt : JsString

/-- `VerificationPurchase` -/
structure VerificationPurchase where
  runId : JsString
  requestId : JsString
  maxAmountAtomic : ℚ
  report : Report
  mandateExpiresAt : JsString

/-- A record of `runs.json`. -/
structure StoredRun where
  owner : JsString
  run : Run
  /-- `{stage, startedAt}` -/
  inFlight : Option (Stage × JsString)

/-! ### A platform to run the code with -/

/-- Read a fraction, with its sign. -/
def readFraction (sign : ℤ) (s : JsString) : Option Json :=
  match readDecimals 0 (s.takeWhile JsString.isDigit), s.dropWhile JsString.isDigit with
  | some n, [] => some (.num (mkRat (sign * n) 1))
  | some n, _ :: rest => (readDecimals 0 rest).map fun d => .num (mkRat (sign * n) d)
  | none, _ => none

/-- Read a plain numeral. -/
def readPlain (s : JsString) : Option Json :=
  if s.head? = some 45 then readFraction (-1) (s.drop 1) else readFraction 1 s

/-- The digits of a fraction, and what follows them. -/
theorem span_fractionText (n d : ℕ) :
    (fractionText n d).takeWhile JsString.isDigit = JsString.decimal n ∧
      (fractionText n d).dropWhile JsString.isDigit =
        if d = 1 then [] else 101 :: JsString.decimal d := by
  have hdigits : ∀ c ∈ JsString.decimal n, JsString.isDigit c = true := fun c hc =>
    JsString.decimal_digits hc
  unfold fractionText
  rw [List.takeWhile_append_of_pos hdigits, List.dropWhile_append_of_pos hdigits]
  split_ifs
  · exact ⟨List.append_nil _, rfl⟩
  · exact ⟨List.append_nil _, rfl⟩

theorem head_fractionText (n d : ℕ) : (fractionText n d).head? ≠ some 45 := by
  intro h
  cases hs : fractionText n d with
  | nil => rw [hs] at h; cases h
  | cons c s =>
    rw [hs] at h
    obtain rfl := Option.some.inj h
    exact sign_ne hs.symm

theorem readFraction_fractionText {q : ℚ} {sign : ℤ} (h : sign * q.num.natAbs = q.num) :
    readFraction sign (fractionText q.num.natAbs q.den) = some (.num q) := by
  obtain ⟨htake, hdrop⟩ := span_fractionText q.num.natAbs q.den
  rw [readFraction, htake, hdrop, readDecimals_decimal]
  split_ifs with hden
  · simp only [h]
    rw [← hden, Rat.mkRat_self]
  · simp only [h, readDecimals_decimal, Option.map_some, Rat.mkRat_self]

theorem readPlain_plainText (q : ℚ) : readPlain (plainText q) = some (.num q) := by
  unfold readPlain plainText
  by_cases hneg : q.num < 0
  · rw [if_pos hneg]
    exact readFraction_fractionText (by omega)
  · rw [if_neg hneg, List.nil_append, if_neg (head_fractionText _ _)]
    exact readFraction_fractionText (by omega)

/-- A hash function without collisions: the bytes, written out. -/
def bytesText (bytes : List ℕ) : JsString := bytes.flatMap fun n => JsString.decimal n ++ [44]

theorem bytesText_injective : Function.Injective bytesText := by
  intro bytes
  induction bytes with
  | nil =>
    intro bytes' h
    cases bytes' with
    | nil => rfl
    | cons n bytes' => simp [bytesText] at h
  | cons n bytes ih =>
    intro bytes' h
    cases bytes' with
    | nil => simp [bytesText] at h
    | cons m bytes' =>
      have htext : JsString.decimal n ++ (44 :: bytesText bytes) =
          JsString.decimal m ++ (44 :: bytesText bytes') := by
        simpa [bytesText] using h
      have hends : ∀ s : JsString, ∀ c, (44 :: s : JsString).head? = some c →
          JsString.isDigit c = false := by
        intro s c hc
        cases hc
        rfl
      obtain ⟨hn, hrest⟩ := span_inj (fun _ => JsString.decimal_digits)
        (fun _ => JsString.decimal_digits) (hends _) (hends _) htext
      rw [JsString.decimal_inj hn, ih (List.cons.inj hrest).2]

/-- The plain hash function. -/
def Sha256.plain : Sha256 where
  digest bytes := js "sha256" ++ bytesText bytes
  digest_ne _ h := by
    have hhead : some (115 : UInt16) = some 103 := congrArg List.head? h
    exact absurd hhead (by decide)

theorem Sha256.plain_injective : Function.Injective Sha256.plain.digest := fun _ _ h =>
  bytesText_injective (List.append_cancel_left h)

/-- A platform to run the code with: every signature is good. -/
def Platform.plain : Platform where
  host := .plain
  readNumber := readPlain
  readNumber_text := readPlain_plainText
  sha := .plain
  arithmetic := .none
  isoString time := JsString.decimal time.toNat
  isDatetime _ := true
  isPublicEndpoint _ := true
  verifyMessage _ _ _ := .ok true

end Runs

end Obolos
