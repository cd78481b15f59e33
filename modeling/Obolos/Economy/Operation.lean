import Obolos.Economy.Schema

/-!
# Circle operations

The records of `economy-circle.ts`: an operation is journalled under one permanent name before it
is submitted, and later correlated with what Circle reports.  The functions here are the pure
parts of `durableOperation` and `reconcile`.
-/

namespace Obolos

namespace Circle

/-- `Record<string, Json>` -/
abbrev Record := List (JsString × Json)

/-- `Intent` -/
structure Intent where
  kind : JsString
  args : List JsString
  deriving DecidableEq

/-- The status of an operation. -/
inductive Status
  | submitting | uncertain | submitted | failed
  deriving DecidableEq, Repr

/-- `Operation`; its `createdAt` is never read. -/
structure Operation where
  name : JsString
  intent : Intent
  intentHash : Bytes32
  idempotencyKey : JsString
  status : Status
  result : Option Record

/-- The part of `CircleConfig` that decides which operations are made. -/
structure CircleConfig where
  wallet : JsString

/-- `CHAIN_ID` -/
def CHAIN_ID : ℕ := 5042002

/-- `CHAIN` -/
def CHAIN : JsString := js "ARC-TESTNET"

/-- `keccak256(toHex(JSON.stringify(intent)))` -/
def Intent.hash (H : Host) (intent : Intent) : Bytes32 :=
  H.textHash (Json.stringify H.numerals (.obj
    [(js "kind", .str intent.kind), (js "args", .arr (intent.args.map .str))]))

/-- `[a-zA-Z0-9]` -/
def isAlphanumeric (c : UInt16) : Bool :=
  (48 ≤ c && c ≤ 57) || (65 ≤ c && c ≤ 90) || (97 ≤ c && c ≤ 122)

/-- `/^[a-zA-Z0-9][a-zA-Z0-9_-]{0,100}$/.test(name)` -/
def isName : JsString → Bool
  | [] => false
  | c :: s =>
    isAlphanumeric c && decide (s.length ≤ 100) &&
      s.all fun d => isAlphanumeric d || d == 95 || d == 45

/-- `validName(name)` -/
def validName (name : JsString) : Except JsError Unit :=
  if isName name then .ok () else JsError.raise "Invalid operation name."

/-! ### Records -/

/-- A property of a record that may be `undefined` itself. -/
def Record.get (key : String) (r : Option Record) : Option Json := r.bind (Json.get (js key))

/-- Whether a value that may be `undefined` counts as true. -/
def truthy : Option Json → Bool
  | none => false
  | some .null => false
  | some (.bool b) => b
  | some (.num q) => q != 0
  | some (.str s) => s != []
  | some _ => true

/-- `a === b`; two objects that were read separately are different. -/
def strictEq : Option Json → Option Json → Bool
  | none, none => true
  | some .null, some .null => true
  | some (.bool a), some (.bool b) => a == b
  | some (.num a), some (.num b) => a == b
  | some (.str a), some (.str b) => a == b
  | _, _ => false

/-- `{...r, ...r'}` -/
def Record.assign (r r' : Record) : Record :=
  r.map (fun entry => (entry.1, (Json.get entry.1 r').getD entry.2)) ++
    r'.filter fun entry => (Json.get entry.1 r).isNone

/-- The keys `sanitizeResult` keeps. -/
def resultKeys : List JsString :=
  ["id", "idempotencyKey", "state", "blockchain", "txHash", "userOpHash", "sourceAddress",
    "destinationAddress", "contractAddress", "blockHeight", "operation", "abiFunctionSignature",
    "abiParameters", "createDate", "errorReason", "errorDetails"].map js

/-- `sanitizeResult(value)` -/
def sanitizeResult : Json → Except JsError Record
  | .obj fields =>
    .ok (resultKeys.filterMap fun key => (Json.get key fields).map fun x => (key, x.copied))
  | .arr _ => .ok []
  | _ => JsError.raise "Missing Circle result."

/-- `String(a).toLowerCase() === b.toLowerCase()` for a value that may be `undefined`. -/
def sameText (H : Host) (a : Option Json) (b : JsString) : Bool :=
  (match a with | none => js "undefined" | some x => x.text H).toLowerCase = b.toLowerCase

/-- `/^0x[\da-f]{64}$/i.test(hash)`, for a value that may be `undefined` or no text. -/
def readHash (hash : Option Json) : Option Bytes32 :=
  (hash.bind Json.asStr).bind readBytes32Lowered

/-- `data.transactions`, when it is an array. -/
def transactions (data : Json) : Option (List Json) := (data.prop "transactions").bind Json.asArr

namespace Operation

variable (H : Host) (config : CircleConfig) (op : Operation)

/-- Whether Circle's record of a transaction belongs to the operation. -/
def isMatch (tx : Record) : Bool :=
  strictEq (Record.get "idempotencyKey" tx) (some (.str op.idempotencyKey)) ||
    (truthy (Record.get "id" op.result) &&
      strictEq (Record.get "id" tx) (Record.get "id" op.result)) ||
    (truthy (Record.get "txHash" op.result) &&
      strictEq (Record.get "txHash" tx) (Record.get "txHash" op.result))

/-- The first transaction of a page that belongs to the operation; a page with an entry that is
no object before it is refused. -/
def findMatch : List Json → Except JsError (Option Record)
  | [] => .ok none
  | value :: rest => do
    let tx ← sanitizeResult value
    if op.isMatch tx then return some tx else findMatch rest

/-- The operation after `reconcile` found its transaction. -/
def correlate (tx : Record) : Except JsError Operation :=
  let known := Record.get "txHash" op.result
  let found := Record.get "txHash" tx
  if truthy known && truthy found && !strictEq known found then
    JsError.raise "Conflicting Circle transaction hash; preserve original evidence."
  else
    let state := Record.get "state" tx
    .ok { op with
      result := some (Record.assign (Record.assign (op.result.getD []) tx)
        [(js "idempotencyKey", .str op.idempotencyKey)])
      status :=
        if strictEq state (some (.str (js "FAILED"))) ||
            strictEq state (some (.str (js "CANCELLED"))) ||
            strictEq state (some (.str (js "DENIED"))) then .failed
        else .submitted }

/-- The operation after its user operation was found on the chain. -/
def onchain (hash : JsString) : Operation :=
  { op with
    result := some (Record.assign (op.result.getD [])
      [(js "txHash", .str hash),
        (js "chainCorrelation", .str (js "finalized-user-operation-event"))]) }

/-- `requireCircleTransactionHash(op)` -/
def requireCircleTransactionHash : Except JsError Bytes32 :=
  match readHash (Record.get "txHash" op.result) with
  | some hash => .ok hash
  | none =>
    match Record.get "id" op.result with
    | some (.str (_ :: _)) =>
      JsError.raise "Circle transaction is correlated, but its transaction hash is not available yet. Preserve this operation and retry read-only reconciliation; do not submit again."
    | _ =>
      JsError.raise "No uniquely correlated transaction found. Preserve the journal and reconcile Circle challenge manually; do not create a replacement operation."

/-- The transaction whose receipt `receipt(config, op)` waits for. -/
def receiptHash : Except JsError Bytes32 :=
  match readHash (Record.get "txHash" op.result) with
  | some hash =>
    if strictEq (Record.get "blockchain" op.result) (some (.str CHAIN)) &&
        sameText H (Record.get "sourceAddress" op.result) config.wallet then .ok hash
    else JsError.raise "Missing matching Circle transaction evidence; reconcile."
  | none => JsError.raise "Missing matching Circle transaction evidence; reconcile."

end Operation

end Circle

end Obolos
