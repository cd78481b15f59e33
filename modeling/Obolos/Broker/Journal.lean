import Obolos.Runs.Stores
import Obolos.Crash.Queue

/-!
# The payment journal of the broker

`DurablePayments` of `services/broker.ts`.  The journal is one file, rewritten as a whole; a call of
`execute` writes a pending entry into it before it starts the operation, and settles the entry
when the operation has succeeded.  The calls of `execute` are queued, those of `result` only read.

`work` says what the effects of `execute` do: `save` puts the new journal in place by a rename, so
it may fail before or after that.  After every `await` the clock may show another time; from a
reading of it to the start of an operation, which follow one another without an `await`, it stands
still.  `look` says what those of `result` do, which nothing in the queue waits for.
-/

namespace Obolos

namespace Broker

open Json Runs

/-- Where the broker runs: the platform, and the order of texts of its locale,
`a.localeCompare(b) <= 0`. -/
structure Machine extends Platform where
  localeLe : JsString → JsString → Bool

section Canonical

variable (M : Machine)

/-- The order of `sort(([a], [b]) => a.localeCompare(b))`. -/
def byLocale (a b : JsString × JsString) : Prop := M.localeLe a.1 b.1 = true

instance : DecidableRel (byLocale M) := fun a b =>
  inferInstanceAs (Decidable (M.localeLe a.1 b.1 = true))

mutual

/-- `canonical(value)` -/
def canonical : Json → JsString
  | .arr items => 91 :: List.intercalate [44] (canonicalItems items) ++ [93]
  | .obj fields =>
    123 :: List.intercalate [44] (((canonicalFields fields).insertionSort (byLocale M)).map
      fun entry => entry.1.quote ++ 58 :: entry.2) ++ [125]
  | .null => stringify M.host.numerals .null
  | .bool b => stringify M.host.numerals (.bool b)
  | .num q => stringify M.host.numerals (.num q)
  | .infinite => stringify M.host.numerals .infinite
  | .str s => stringify M.host.numerals (.str s)

/-- `value.map(canonical)` -/
def canonicalItems : List Json → List JsString
  | [] => []
  | x :: items => canonical x :: canonicalItems items

/-- `canonical` of the values of the entries. -/
def canonicalFields : List (JsString × Json) → List (JsString × JsString)
  | [] => []
  | (key, x) :: fields => (key, canonical x) :: canonicalFields fields

end

/-- `digest(value)` -/
def digest (value : Json) : JsString := M.sha.digest (JsString.utf8 (canonical M value))

end Canonical

/-! ### The journal -/

/-- `'pending' | 'settled'` -/
inductive EntryState
  | pending | settled
  deriving DecidableEq

/-- `JournalEntry` -/
structure Entry where
  requestId : JsString
  runId : JsString
  kind : JsString
  digest : JsString
  amount : ℚ
  state : EntryState
  result : Option Json

/-- A call of `execute`. -/
structure Call where
  requestId : JsString
  runId : JsString
  kind : JsString
  input : Json
  amount : ℚ
  limit : ℚ
  mandateExpiresAt : Option JsString

/-- An entry as the file hands it out. -/
def Entry.reread (M : Machine) (e : Entry) : Entry := { e with result := e.result.map M.fileLayout }

/-- The entry of a call. -/
def Call.entry (M : Machine) (c : Call) : Entry :=
  ⟨c.requestId, c.runId, c.kind, digest M c.input, c.amount, .pending, none⟩

/-- `entry.state = 'settled'; entry.result = result` -/
def Entry.settle (e : Entry) (result : Option Json) : Entry :=
  { e with state := .settled, result := result }

/-- The amounts of the entries of a kind. -/
def used (kind : JsString) (entries : List Entry) : ℚ :=
  ((entries.filter fun e => e.kind = kind).map Entry.amount).sum

/-- Whether a value counts as true. -/
def truthy : Json → Bool
  | .null => false
  | .bool b => b
  | .num q => q ≠ 0
  | .str s => s ≠ []
  | _ => true

/-- `x === y`, for two values of different origin: no two objects are the same. -/
def strictEq : Option Json → Option Json → Bool
  | none, none => true
  | some .null, some .null => true
  | some (.bool b), some (.bool b') => b = b'
  | some (.num q), some (.num q') => q = q'
  | some (.str s), some (.str s') => s = s'
  | _, _ => false

/-- `result?.receipt` -/
def receipt (result : Option Json) : Option Json := result.bind (prop "receipt")

/-- `receipt?.transactionId` -/
def transactionId (receipt : Option Json) : Option Json := receipt.bind (prop "transactionId")

/-- `receipt?.network` -/
def network (receipt : Option Json) : Option Json := receipt.bind (prop "network")

/-- Whether the transaction of a result is that of an entry. -/
def Entry.sameTransaction (e : Entry) (result : Option Json) : Bool :=
  strictEq (transactionId (receipt e.result)) (transactionId (receipt result)) &&
    strictEq (network (receipt e.result)) (network (receipt result))

/-- Whether a result has a transaction that an entry has already. -/
def duplicate (entries : List Entry) (result : Option Json) : Bool :=
  (transactionId (receipt result)).any truthy && entries.any fun e => e.sameTransaction result

/-! ### Effects -/

/-- The effects. -/
inductive Effect
  | now
  | readJournal
  | save (entries : List Entry)
  | operation (call : Call)

/-- The answers; a journal that does not exist yet is read as `none`. -/
abbrev Answer : Effect → Type
  | .now => ℤ
  | .readJournal => Option (List Entry)
  | .save _ => Unit
  | .operation _ => Option Json

/-- Programs with these effects. -/
abbrev Exec (α : Type) := Prog Effect Answer JsError α

/-- An operation that was started, and when. -/
structure Start where
  call : Call
  time : ℤ

/-- The journal, the operations that were started, and the clock. -/
structure World where
  journal : Option (List Entry)
  starts : List Start
  clock : ℤ

/-- Before the first call. -/
def World.empty : World := ⟨none, [], 0⟩

/-- The entries of the journal. -/
def World.entries (d : World) : List Entry := d.journal.getD []

/-- A value as `JSON.parse` makes it: with finite numbers, and one value for every key. -/
def Data (x : Json) : Prop := x.finite = true ∧ Distinct x

/-- What the effects do. -/
def work (d : World) : (o : Effect) → Except JsError (Answer o) → World → Prop
  | .now, r, d' => ∃ time, r = .ok time ∧ d' = { d with clock := time }
  | .readJournal, r, d' => (∀ journal, r = .ok journal → journal = d.journal) ∧
      ∃ time, d' = { d with clock := time }
  | .save entries, r, d' => ∃ time, d' = { d with journal := some entries, clock := time } ∨
      ((∃ e, r = .error e) ∧ d' = { d with clock := time })
  | .operation call, r, d' => (∀ x, r = .ok (some x) → Data x) ∧
      ∃ time, d' = { d with starts := d.starts ++ [⟨call, d.clock⟩], clock := time }

/-- What the effects of a reader do: the queue does not wait for them. -/
def look (d : World) (o : Effect) (r : Except JsError (Answer o)) (d' : World) : Prop :=
  ∃ time, work d o r { d' with clock := time } ∧ d'.clock = d.clock

/-! ### `DurablePayments` -/

/-- `throw new PolicyError(message)` -/
def refuse {α : Type} (message : String) : Exec α := throw (.error (js message))

section

variable (M : Machine)

/-- `assertMandateActive(expiresAt)` -/
def assertMandateActive (expiresAt : JsString) : Exec Unit :=
  match M.host.dateParse expiresAt with
  | none => refuse "Mandate expired before payment submission."
  | some expiry => do
    let now ← Prog.await .now
    if expiry ≤ now then refuse "Mandate expired before payment submission."

/-- `if (mandateExpiresAt !== undefined) assertMandateActive(mandateExpiresAt)` -/
def checkMandate (mandateExpiresAt : Option JsString) : Exec Unit :=
  match mandateExpiresAt with
  | none => pure ()
  | some expiresAt => assertMandateActive M expiresAt

/-- `this.read()` -/
def read : Exec (List Entry) := do
  let journal ← tryCatch (Prog.await .readJournal) fun _ =>
    refuse "Payment journal unavailable; manual recovery required."
  return (journal.getD []).map (Entry.reread M)

/-- `this.save(entries)` -/
def save (entries : List Entry) : Exec Unit := Prog.await (Effect.save entries)

/-- `result(runId, kind)` -/
def result (runId kind : JsString) : Exec (Option Json) := do
  let entries ← read M
  return (entries.find? fun e => e.runId = runId ∧ e.kind = kind ∧ e.state = .settled).bind
    Entry.result

/-- A call for a request that is in the journal already. -/
def replay (c : Call) (previous : Entry) : Exec (Option Json) := do
  if previous.digest ≠ digest M c.input ∨ previous.runId ≠ c.runId ∨ previous.kind ≠ c.kind then
    refuse "Request ID reused with different parameters."
  else if previous.state ≠ .settled then
    refuse "Payment outcome uncertain; manual reconciliation required."
  else return previous.result

/-- The operation of a call whose pending entry was saved behind the given entries. -/
def perform (c : Call) (entries : List Entry) : Exec (Option Json) :=
  tryCatch (do
    checkMandate M c.mandateExpiresAt
    let result ← Prog.await (.operation c)
    if duplicate (entries ++ [c.entry M]) result then
      throw (.error (js "Duplicate chain transaction"))
    else
      save (entries ++ [(c.entry M).settle result])
      return result)
    fun _ => refuse "Operation outcome uncertain; manual reconciliation required."

/-- Whether the budgets of a call are amounts. -/
def Call.validBudget (c : Call) : Bool :=
  isSafeInteger c.amount && decide (0 ≤ c.amount) && isSafeInteger c.limit && decide (0 ≤ c.limit)

/-- `execute(requestId, runId, kind, input, amount, limit, operation, mandateExpiresAt)` -/
def execute (c : Call) : Exec (Option Json) := do
  checkMandate M c.mandateExpiresAt
  if c.validBudget = false then refuse "Invalid budget."
  else
    let entries ← read M
    match entries.find? fun e => e.requestId = c.requestId with
    | some previous => replay M c previous
    | none =>
      if entries.any fun e => e.runId = c.runId ∧ e.kind = c.kind then
        refuse "This run already has a payment intent for this stage."
      else if used c.kind entries + c.amount > c.limit then
        refuse "Broker lifetime budget exhausted."
      else
        save (entries ++ [c.entry M])
        perform M c entries

/-- The broker: calls of `execute`, queued, and calls of `result` beside them. -/
def system (calls : Call → Prop) : System (Option ℕ) World Effect Answer JsError (Option Json) :=
  Sequential.queue work look (fun p => ∃ c, calls c ∧ p = execute M c)
    fun p => ∃ runId kind, p = result M runId kind

end

end Broker

end Obolos
