import Obolos.Economy.Recovery

/-!
# Production accounts

A seller states which purchases it has consumed to produce the output of a sale, and what else it has
spent (`production-account.ts`).  The statement is signed by the seller and names its hash.
-/

namespace Obolos

namespace Production

open Recovery (readHash readIndex)

/-! ### Statements -/

/-- An item of `inputs` -/
structure Input where
  orderId : JsString
  amountAtomic : ℕ
  deriving DecidableEq

/-- `ProductionAccount` -/
structure ProductionAccount where
  settlement : JsString
  ledger : JsString
  orderId : JsString
  transactionHash : JsString
  outputHash : JsString
  seller : JsString
  issuedAt : ℕ
  inputs : List Input
  externalIntermediateAtomic : ℕ
  gasAtomic : ℕ
  inferenceAtomic : ℕ
  otherResourceAtomic : ℕ
  allIntermediateInputsIncluded : Bool
  allResourcesIncluded : Bool
  sourceReference : JsString
  sourceHash : JsString

/-- `hash` -/
def readHashText (s : JsString) : Option JsString := (readHash s).map fun _ => s

/-- `address` -/
def readAddressText (s : JsString) : Option JsString :=
  ((readHex 40 s).map (BitVec.ofNat 160)).bind fun a => if Address.text a = s then some s else none

/-- `atomic`, read with `BigInt` -/
def readAtomic (s : JsString) : Option ℕ :=
  if 78 < s.length then none
  else if s = js "0" then some 0
  else readPositive s

/-- `z.boolean()` -/
def readBool : Json → Option Bool
  | .bool b => some b
  | _ => none

/-- `sourceReference` -/
def readSource (H : Host) (s : JsString) : Option JsString :=
  (readUrl H s).filter fun s => decide (s.length ≤ 512 ∧ js "https://" <+: s)

/-- An item of `inputs`, with a positive amount. -/
def Input.parse (x : Json) : Except JsError Input := do
  let fields ← Json.strictFields ["orderId", "amountAtomic"] x
  let orderId ← Json.textField readHashText "orderId" fields
  let amountAtomic ← Json.textField
    (fun s => (readAtomic s).filter fun n => decide (0 < n)) "amountAtomic" fields
  return { orderId, amountAtomic }

/-- `productionAccountSchema.parse(value)` -/
def ProductionAccount.parse (H : Host) (x : Json) : Except JsError ProductionAccount := do
  let fields ← Json.strictFields ["protocol", "chainId", "settlement", "ledger", "orderId",
    "transactionHash", "outputHash", "seller", "issuedAt", "inputs", "externalIntermediateAtomic",
    "gasAtomic", "inferenceAtomic", "otherResourceAtomic", "allIntermediateInputsIncluded",
    "allResourcesIncluded", "sourceReference", "sourceHash"] x
  Json.literalField "obolos.production-account.v1" "protocol" fields
  Json.field (fun x => match x with | .num q => if q = chainId then some () else none | _ => none)
    "chainId" fields
  let settlement ← Json.textField readAddressText "settlement" fields
  let ledger ← Json.textField readAddressText "ledger" fields
  let orderId ← Json.textField readHashText "orderId" fields
  let transactionHash ← Json.textField readHashText "transactionHash" fields
  let outputHash ← Json.textField readHashText "outputHash" fields
  let seller ← Json.textField readAddressText "seller" fields
  let issuedAt ← Json.field readIndex "issuedAt" fields
  let items ← Json.field (fun x => x.asArr.filter fun items => decide (items.length ≤ 64)) "inputs"
    fields
  let inputs ← items.mapM Input.parse
  let externalIntermediateAtomic ← Json.textField readAtomic "externalIntermediateAtomic" fields
  let gasAtomic ← Json.textField readAtomic "gasAtomic" fields
  let inferenceAtomic ← Json.textField readAtomic "inferenceAtomic" fields
  let otherResourceAtomic ← Json.textField readAtomic "otherResourceAtomic" fields
  let allIntermediateInputsIncluded ← Json.field readBool "allIntermediateInputsIncluded" fields
  let allResourcesIncluded ← Json.field readBool "allResourcesIncluded" fields
  let sourceReference ← Json.textField (readSource H) "sourceReference" fields
  let sourceHash ← Json.textField readHashText "sourceHash" fields
  return { settlement, ledger, orderId, transactionHash, outputHash, seller, issuedAt, inputs,
           externalIntermediateAtomic, gasAtomic, inferenceAtomic, otherResourceAtomic,
           allIntermediateInputsIncluded, allResourcesIncluded, sourceReference, sourceHash }

/-! ### Authentication -/

/-- What the code uses of the environment and of third-party libraries. -/
structure Services where
  host : Host
  /-- viem's `verifyMessage({address, message, signature})` -/
  verifyMessage : JsString → JsString → JsString → Bool
  /-- `e instanceof Error ? e.message : 'Invalid accounting statement.'` -/
  errorMessage : JsError → JsString

/-- `EconomyDeployment` -/
structure Deployment where
  settlement : JsString
  ledger : JsString

/-- The totals of a statement. -/
structure Totals where
  intermediateAtomic : Option ℕ
  resourceCostAtomic : Option ℕ

/-- `productionAccountTotals(p)` -/
def productionAccountTotals (p : ProductionAccount) : Except JsError Totals := do
  if ¬ (p.inputs.map Input.orderId).Nodup ∨ p.orderId ∈ p.inputs.map Input.orderId then
    JsError.raise "Input orders must be distinct from each other and the output sale."
  if p.allResourcesIncluded && !p.allIntermediateInputsIncluded then
    JsError.raise "Complete resource accounting requires complete intermediate inputs."
  let intermediate := p.externalIntermediateAtomic + (p.inputs.map Input.amountAtomic).sum
  return {
    intermediateAtomic := if p.allIntermediateInputsIncluded then some intermediate else none
    resourceCostAtomic := if p.allResourcesIncluded then
      some (intermediate + p.gasAtomic + p.inferenceAtomic + p.otherResourceAtomic) else none }

/-- What `authenticateProductionAccount` returns, with the payload as it was received. -/
structure SignedAccount where
  payload : ProductionAccount
  value : Json
  signature : JsString
  evidenceHash : JsString

/-- `productionAccountMessage(payload)` -/
def productionAccountMessage (H : Host) (payload : Json) : JsString :=
  js "Obolos production accounting v1\n" ++ Json.canonicalJson H.numerals payload

/-- `authenticateProductionAccount(input,deployment,now)`.  The payload is hashed as it was received;
parsing changes only the order of its keys. -/
def authenticateProductionAccount (Sv : Services) (D : Deployment) (now : ℕ) (input : Json) :
    Except JsError SignedAccount := do
  let fields ← Json.strictFields ["payload", "signature"] input
  let value ← Json.field some "payload" fields
  let payload ← ProductionAccount.parse Sv.host value
  let signature ← Json.textField (fun s => (readHex 130 s).map fun _ => s) "signature" fields
  if payload.settlement ≠ D.settlement.toLowerCase ∨ payload.ledger ≠ D.ledger.toLowerCase then
    JsError.raise "Accounting belongs to a different deployment."
  if now < payload.issuedAt ∨ payload.issuedAt + 86400 < now then
    JsError.raise "Accounting signature must be issued within the last day."
  let _ ← productionAccountTotals payload
  if !Sv.verifyMessage payload.seller (productionAccountMessage Sv.host value) signature then
    JsError.raise "Producer signature does not match the seller."
  let hash ← Json.canonicalJsonHash Sv.host value
  return { payload, value, signature, evidenceHash := hash.text }

variable {Sv : Services} {D : Deployment} {now : ℕ} {input : Json} {record : SignedAccount}

theorem productionAccountTotals_ok {p : ProductionAccount} {totals : Totals}
    (h : productionAccountTotals p = .ok totals) :
    (p.inputs.map Input.orderId).Nodup ∧ p.orderId ∉ p.inputs.map Input.orderId := by
  simp only [productionAccountTotals, JsError.raise, JsError.throwIf_eq_ok] at h
  obtain ⟨hdistinct, -⟩ := h
  simp only [not_or, not_not] at hdistinct
  exact hdistinct

/-- The inputs of an authentic statement are different orders, and not its output. -/
theorem authenticate_inputs (h : authenticateProductionAccount Sv D now input = .ok record) :
    (record.payload.inputs.map Input.orderId).Nodup ∧
      record.payload.orderId ∉ record.payload.inputs.map Input.orderId := by
  simp only [authenticateProductionAccount, JsError.raise, bind_eq_ok, JsError.throwIf_eq_ok,
    pure_eq_ok] at h
  obtain ⟨_, -, _, -, payload, -, _, -, -, -, _, htotals, -, _, -, rfl⟩ := h
  exact productionAccountTotals_ok htotals

end Production

end Obolos
