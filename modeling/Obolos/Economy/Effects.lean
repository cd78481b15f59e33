import Obolos.Economy.ExecutorState
import Obolos.Economy.Operation
import Obolos.Crash.Exclusive

/-!
# The effects of a purchase

Everything a purchase awaits: its journals on disk (the state of every order, the allowance
reservation, the journal of every Circle operation), the Circle command line, and the platform
and the chain behind the network.

`work` says what each effect does to the disk.  Saving a file is one rename, so it happens or it
does not, and may in either case report an error.  Network effects can answer anything.  An
operation's own lock file may be in the way at any time, and may have been removed at any time.
-/

namespace Obolos

namespace Executor

open Obolos.Circle

/-- `allowance-reservation.json` -/
structure Reservation where
  orderId : Bytes32
  payer : Address
  deriving DecidableEq

/-- What the outside world can notice. -/
inductive Event
  /-- The Circle command line was run to submit the operation of this name. -/
  | submitted (name : JsString)
  /-- `approve`, `pay` or `abort` was called for an order. -/
  | reached (orderId : Bytes32) (kind : ExecutorAction)
  /-- `verifyPayment` succeeded for an order. -/
  | paymentVerified (orderId : Bytes32)
  /-- `verifyAborted` succeeded for an order. -/
  | abortVerified (orderId : Bytes32)
  deriving DecidableEq

/-- The effects. -/
inductive Effect
  -- the directory of the orders
  | readState (orderId : Bytes32)
  | saveState (orderId : Bytes32) (state : ExecutorState)
  | readReservation
  | saveReservation (reservation : Reservation)
  /-- `unlink(reservationPath)`, where a missing file is no error. -/
  | unlinkReservation
  | syncDirectory
  -- the directory of the operations
  | mkdirJournal
  | lockOperation (name : JsString)
  | closeOperation (name : JsString)
  | unlockOperation (name : JsString)
  | loadOperation (name : JsString)
  | saveOperation (name : JsString) (operation : Operation)
  -- the Circle command line
  | randomUUID
  /-- A submission; `name` is the operation it is journalled under. -/
  | submit (name : JsString) (args : List JsString) (key : JsString)
  | circle (args : List JsString)
  -- the chain
  | getChainId
  | findFinalizedUserOperation (wallet userOpHash : JsString)
  | waitForTransactionReceipt (hash : Bytes32)
  | finalizedReceipt (hash : Bytes32)
  | assertUnpaid (intent : ExecutorInput)
  | allowance (intent : ExecutorInput)
  | finalizedAllowance (intent : ExecutorInput)
  -- the platform and the chain
  | authenticate (intent : ExecutorInput)
  | preflight (intent : ExecutorInput) (versions : Option Versions)
  | prepareApproval (state : ExecutorState)
  | preparePayment (state : ExecutorState)
  | assertActiveService (intent : ExecutorInput)
  | verifyPayment (state : ExecutorState)
  | deliver (request : ServiceRequest)
  | verifyDelivery (state : ExecutorState)
  /-- No effect of the program: a remark in the history. -/
  | remark (event : Event)

/-- The answers. -/
abbrev Answer : Effect → Type
  | .readState _ => Option ExecutorState
  | .readReservation => Option Reservation
  | .loadOperation _ => Option Operation
  | .randomUUID => JsString
  | .submit _ _ _ => Json
  | .circle _ => Json
  | .getChainId => ℕ
  | .findFinalizedUserOperation _ _ => Option JsString
  | .waitForTransactionReceipt _ => Bool
  | .allowance _ => ℕ
  | .finalizedAllowance _ => ℕ
  | .preflight _ _ => Versions
  | .deliver _ => Delivery
  | .verifyDelivery _ => Bool
  | _ => Unit

/-- Programs with these effects. -/
abbrev Exec (α : Type) := Prog Effect Answer JsError α

/-- One effect. -/
def perform (o : Effect) : Exec (Answer o) := Prog.await o

/-- What is on disk, and what happened. -/
structure Journal where
  states : Bytes32 → Option ExecutorState
  reservation : Option Reservation
  operations : JsString → Option Operation
  history : List Event

namespace Journal

/-- Empty directories. -/
def empty : Journal := ⟨fun _ => none, none, fun _ => none, []⟩

variable (j : Journal)

/-- Save the state of an order. -/
def setState (orderId : Bytes32) (state : ExecutorState) : Journal :=
  { j with states := Function.update j.states orderId (some state) }

/-- Save or remove the reservation. -/
def setReservation (reservation : Option Reservation) : Journal :=
  { j with reservation := reservation }

/-- Save the journal of an operation. -/
def setOperation (name : JsString) (operation : Operation) : Journal :=
  { j with operations := Function.update j.operations name (some operation) }

/-- Something happens. -/
def record (event : Event) : Journal := { j with history := j.history ++ [event] }

end Journal

/-- A change of the disk that is reported as done, or as failed although it may be done. -/
def write (j changed : Journal) : Except JsError Unit → Journal → Prop
  | .ok _, j' => j' = changed
  | .error _, j' => j' = j ∨ j' = changed

/-- What an effect does. -/
def work (j : Journal) : (o : Effect) → Except JsError (Answer o) → Journal → Prop
  | .readState orderId, .ok state, j' => state = j.states orderId ∧ j' = j
  | .saveState orderId state, r, j' => write j (j.setState orderId state) r j'
  | .readReservation, .ok reservation, j' => reservation = j.reservation ∧ j' = j
  | .saveReservation reservation, r, j' => write j (j.setReservation (some reservation)) r j'
  | .unlinkReservation, r, j' => write j (j.setReservation none) r j'
  | .loadOperation name, .ok operation, j' => operation = j.operations name ∧ j' = j
  | .saveOperation name operation, r, j' => write j (j.setOperation name operation) r j'
  | .submit name _ _, _, j' => j' = j.record (.submitted name)
  | .verifyPayment state, .ok _, j' => j' = j.record (.paymentVerified state.intent.orderId)
  | .remark event, r, j' => r = .ok () ∧ j' = j.record event
  | _, _, j' => j' = j

/-- `read(path)` for the journal of an order or the reservation: an unreadable file is refused. -/
def read {α : Type} (file : Exec α) : Exec α :=
  tryCatch file fun _ =>
    throw (.error (js "Invalid executor journal; preserve it for inspection."))

end Executor

end Obolos
