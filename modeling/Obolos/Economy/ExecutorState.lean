import Obolos.Economy.ServiceContract
import Obolos.Contracts.MarketSettlement

/-!
# The state of a purchase

The data of `executor.ts`: the input of a purchase, the state that is stored for its order, and
what is derived from it (the names of its Circle operations, the order for the settlement
contract, the request for the provider).
-/

namespace Obolos

namespace Executor

/-- `ExecutorInput` -/
structure ExecutorInput where
  origin : JsString
  platformAgentId : JsString
  orderId : Bytes32
  owner : Address
  payer : Address
  definition : ServiceDefinition
  serviceHash : Bytes32
  input : Json
  maxAmountAtomic : ℕ
  expiry : ℕ

namespace ExecutorInput

variable (H : Host)

/-- `z.string().url().refine(value => …)`: an origin on `https:`. -/
def readOrigin (s : JsString) : Option JsString :=
  (readUrl H s).bind fun origin => (H.url origin).bind fun u =>
    if u.protocol = js "https:" ∧ u.origin = origin then some origin else none

/-- `executorInputSchema.parse(value)`.  A missing `input` is refused by `validateSchemaValue` in
the source, and here already. -/
def parse (x : Json) : Except JsError ExecutorInput := do
  let fields ← Json.strictFields ["version", "origin", "platformAgentId", "orderId", "owner",
    "payer", "definition", "serviceHash", "input", "maxAmountAtomic", "expiry"] x
  Json.field (fun x => match x with | .num q => if q = 1 then some () else none | _ => none)
    "version" fields
  let origin ← Json.textField (readOrigin H) "origin" fields
  let platformAgentId ← Json.textField (fun s => if H.isUuid s then some s else none)
    "platformAgentId" fields
  let orderId ← Json.textField (fun s => (readBytes32Lowered s).bind fun b =>
    if b ≠ 0 then some b else none) "orderId" fields
  let owner ← Json.textField (readAddress H) "owner" fields
  let payer ← Json.textField (readAddress H) "payer" fields
  let definition ← Json.field (fun x => (ServiceDefinition.parse H x).toOption)
    "definition" fields
  let serviceHash ← Json.textField readBytes32Lowered "serviceHash" fields
  let input ← Json.field some "input" fields
  let maxAmountAtomic ← Json.textField readPositive "maxAmountAtomic" fields
  let expiry ← Json.textField readPositive "expiry" fields
  return { origin, platformAgentId, orderId, owner, payer, definition, serviceHash, input,
           maxAmountAtomic, expiry }

variable (intent : ExecutorInput)

/-- An input as a JSON value. -/
def json : Json :=
  .obj
    [(js "version", .num 1),
      (js "origin", .str intent.origin),
      (js "platformAgentId", .str intent.platformAgentId),
      (js "orderId", .str intent.orderId.text),
      (js "owner", .str intent.owner.text),
      (js "payer", .str intent.payer.text),
      (js "definition", intent.definition.json),
      (js "serviceHash", .str intent.serviceHash.text),
      (js "input", intent.input),
      (js "maxAmountAtomic", .str (JsString.decimal intent.maxAmountAtomic)),
      (js "expiry", .str (JsString.decimal intent.expiry))]

/-- The checks of `runEconomyExecutor` before it touches the disk. -/
def check : Except JsError Unit := do
  intent.definition.check H
  intent.input.validateSchemaValue H intent.definition.inputSchema (64 * 1024)
  if intent.serviceHash ≠ intent.definition.serviceHash ∨
      intent.definition.amount > intent.maxAmountAtomic then
    JsError.raise "Service or maximum amount mismatch."

end ExecutorInput

/-- `Versions` -/
structure Versions where
  policyVersion : ℕ
  agentVersion : ℕ
  feeVersion : ℕ
  deriving DecidableEq

/-- The versions as a JSON value. -/
def Versions.json (versions : Versions) : Json :=
  .obj
    [(js "policyVersion", .str (JsString.decimal versions.policyVersion)),
      (js "agentVersion", .str (JsString.decimal versions.agentVersion)),
      (js "feeVersion", .str (JsString.decimal versions.feeVersion))]

/-- The phase of a purchase. -/
inductive Phase
  | prepared | approving | approved | paying | paid | delivered | acknowledging | completed
  | aborting | aborted
  deriving DecidableEq, Repr

/-- `ExecutorState` -/
structure ExecutorState where
  intent : ExecutorInput
  intentHash : Bytes32
  versions : Versions
  phase : Phase
  abortHash : Option Bytes32 := none
  abortRevokeRequired : Bool := false
  request : Option ServiceRequest := none
  paymentHash : Option Bytes32 := none
  output : Option Json := none
  outputHash : Option Bytes32 := none
  acknowledgmentHash : Option Bytes32 := none

/-- `ExecutorAction` -/
inductive ExecutorAction
  | approve | pay | ack | abort
  deriving DecidableEq, Repr

/-- The name of an action. -/
def ExecutorAction.text : ExecutorAction → JsString
  | approve => js "approve"
  | pay => js "pay"
  | ack => js "ack"
  | abort => js "abort"

/-- The name of the Circle operation for an action of an order. -/
def nameOf (orderId : Bytes32) (kind : ExecutorAction) : JsString :=
  js "executor-" ++ JsString.hex 64 orderId.toNat ++ js "-" ++ kind.text

/-- `Delivery` -/
structure Delivery where
  orderId : JsString
  serviceHash : JsString
  transactionHash : JsString
  state : JsString
  output : Option Json
  outputHash : Option JsString

namespace ExecutorState

variable (H : Host) (state : ExecutorState)

/-- `operationName(state, kind)` -/
def operationName (kind : ExecutorAction) : JsString := nameOf state.intent.orderId kind

/-- `settlementOrder(state)` -/
def settlementOrder : Except JsError ObolosMarketSettlement.Order := do
  let i := state.intent
  let s := i.definition
  return {
    orderId := i.orderId
    agentId := H.textHash i.platformAgentId
    category := s.category.index
    seller := s.seller
    serviceHash := s.serviceHash
    unitHash := H.textHash s.unit
    quantity := s.quantity
    unitPrice := s.unitPriceAtomic
    amount := s.amount
    inputHash := ← i.input.canonicalJsonHash H
    deadline := i.expiry
    policyVersion := state.versions.policyVersion
    agentVersion := state.versions.agentVersion
    feeVersion := state.versions.feeVersion }

/-- `requestFor(state)` -/
def requestFor : Except JsError ServiceRequest := do
  let i := state.intent
  let s := i.definition
  let o ← state.settlementOrder H
  match state.paymentHash with
  | none => JsError.raise "Missing payment proof."
  | some paymentHash =>
    let request : ServiceRequest := {
      orderId := i.orderId
      agentId := o.agentId
      payer := i.payer
      serviceHash := s.serviceHash
      inputHash := o.inputHash
      category := s.category
      unit := s.unit
      quantity := s.quantity
      unitPriceAtomic := s.unitPriceAtomic
      amountAtomic := o.amount
      settlementAddress := s.settlementAddress
      ledgerAddress := s.ledgerAddress
      transactionHash := paymentHash
      input := i.input }
    request.check H s
    return request

end ExecutorState

/-! ### Operation names -/

theorem text_inj {k k' : ExecutorAction} (h : k.text = k'.text) : k = k' := by
  cases k <;> cases k' <;> first | rfl | exact absurd h (by decide)

/-- Different actions have different operations. -/
theorem nameOf_inj {A B : Bytes32} {k k' : ExecutorAction} (h : nameOf A k = nameOf B k') :
    A = B ∧ k = k' := by
  simp only [nameOf, List.append_assoc, List.append_cancel_left_eq] at h
  obtain ⟨hid, hkind⟩ := List.append_inj h (by rw [JsString.hex_length, JsString.hex_length])
  refine ⟨?_, text_inj (by simpa using hkind)⟩
  have hpow : 2 ^ 256 = 16 ^ 64 := by norm_num
  exact BitVec.eq_of_toNat_eq (JsString.hex_inj (hpow ▸ A.isLt) (hpow ▸ B.isLt) hid)

end Executor

end Obolos
