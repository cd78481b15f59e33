import Obolos.Crash.Reach
import Obolos.Economy.RecoveryRuns

/-!
# Runs of the recovery actions

Any users run any actions, and other handlers put orders (`Program`), each over a connection of its
own.  `recovery_actions` is about every reachable state, and about every action that is started
there.
-/

namespace Obolos

namespace Recovery

open Transactions (World Committed Out Stable Settled Changes Contributes protocol settled_of_answers)

variable {ι : Type} [DecidableEq ι] {C : Chain} {Sv : Services} {lost : Prop} {i : ι}
  {n : List (Committed ι Tables)} {d : Worlds ι} {good : Result → Prop}
  {change : Tables → Tables → Prop} {bad : ApiError → Prop}

/-- The programs: the actions of any users, and the handlers that put orders. -/
inductive Program (Sv : Services) : Exec Result → Prop
  | action (user : User) (orderId : JsString) (value : Json) :
      Program Sv (recoveryAction Sv user orderId value)
  | order (order : Order) : Program Sv (putOrder Sv order)

/-- The states of a run. -/
abbrev State (ι : Type) := System.State ι (Worlds ι) (Transactions.Effect Lock Query ChainCall)
  (Transactions.Answer Rows ChainAnswer) ApiError Result

/-- The actions of a run. -/
abbrev Action (ι : Type) := System.Action ι (Transactions.Effect Lock Query ChainCall)
  (Transactions.Answer Rows ChainAnswer) ApiError Result

variable (C Sv lost) in
/-- The processes with their connections; `lost` says whether the answer of an executed `COMMIT` can
be lost. -/
abbrev system : System ι (Worlds ι) (Transactions.Effect Lock Query ChainCall)
    (Transactions.Answer Rows ChainAnswer) ApiError Result :=
  Transactions.system schema fault lost C.answers Outside.turn (Program Sv)

theorem program_wp {p : Exec Result} (hp : Program Sv p) (h : Out (discipline C Sv) i n d) :
    p.wp (obligations C Sv lost i) (Ends C Sv lost i n) d := by
  cases hp with
  | action user orderId value => exact recoveryAction_wp h
  | order order => exact putOrder_wp h

theorem sound : (protocol (discipline C Sv)).Sound (system (ι := ι) C Sv lost) :=
  Transactions.sound (fun _ _ h => h.later) fun _ _ _ _ hp h =>
    Prog.wp_mono (program_wp hp h) fun _ _ _ => trivial

/-- The tables before anything was recorded. -/
def Tables.empty : Tables := ⟨[], [], [], []⟩

theorem holds_empty (w : ℕ) : Holds C Sv Tables.empty (Outside.start w) where
  readings _ h := by cases h
  orders := List.nodup_nil
  disputes := List.nodup_nil
  refunds := List.nodup_nil
  reviews := List.nodup_nil
  genuine _ h := by cases h
  refunded _ h := by cases h

/-- The outcomes of `Ended`. -/
def Outcome (lost : Prop) (good : Result → Prop) (change : Tables → Tables → Prop)
    (bad : ApiError → Prop) : Except ApiError Result → Option (Transactions.Change Tables) → Prop
  | .ok o, c => good o ∧ ∃ t t', c = some ⟨t, t', true⟩ ∧ change t t'
  | .error e, c => bad e ∧ (c = none ∨ lost ∧ ∃ t t', c = some ⟨t, t', false⟩ ∧ change t t')

theorem Ended.settled {r : Except ApiError Result} (h : Ended C Sv lost i n good change bad r d) :
    Settled (discipline C Sv) i n (Outcome lost good change bad) r d := by
  cases r with
  | ok o =>
    obtain ⟨hgood, t, t', hout, hchange⟩ := h
    exact .of_commit hout ⟨hgood, t, t', rfl, hchange⟩
  | error e =>
    rcases h with ⟨hbad, hout | ⟨hlost, t, t', hout, hchange⟩⟩
    · exact .of_out hout ⟨hbad, Or.inl rfl⟩
    · exact .of_commit hout ⟨hbad, Or.inr ⟨hlost, t, t', rfl, hchange⟩⟩

section Outcomes

variable {s t : State ι} {p : Exec Result} {r : Except ApiError Result}

end Outcomes

/-- A client that never fails. -/
def Chain.client (C : Chain) (w : ℕ) : (o : ChainCall) → Except ApiError (ChainAnswer o)
  | .getChainId => .ok C.chainId
  | .getTransactionReceipt hash =>
    match C.receipt hash with
    | some receipt => .ok receipt
    | none => .error (.thrown .other)
  | .finalizedBlock => .ok w
  | .getBlock n => .ok (C.blockHash n)
  | .readControllerBindings _ _ => .ok []

/-- Its answers are recorded. -/
def Chain.reply (C : Chain) (w : Outside) (o : ChainCall) :
    Except ApiError (ChainAnswer o) × Outside :=
  (C.client w.final o, w.after o (C.client w.final o))

theorem Chain.answers_reply (C : Chain) (w : Outside) (o : ChainCall) :
    C.answers w o (C.reply w o).1 (C.reply w o).2 := by
  refine ⟨rfl, ?_⟩
  cases o with
  | getChainId => exact Or.inl ⟨_, rfl, rfl⟩
  | getTransactionReceipt hash =>
    cases hreceipt : C.receipt hash with
    | none => exact Or.inr ⟨.other, by simp only [Chain.reply, Chain.client, hreceipt]⟩
    | some receipt =>
      refine Or.inl ⟨receipt, by simp only [Chain.reply, Chain.client, hreceipt], Or.inl hreceipt,
        fun final hfinal _ => ?_⟩
      exact Option.some.inj (hreceipt.symm.trans hfinal)
  | finalizedBlock => exact Or.inl ⟨_, rfl, le_rfl⟩
  | getBlock n => exact Or.inl ⟨_, rfl, fun _ => rfl⟩
  | readControllerBindings addresses n => exact Or.inl ⟨_, rfl, trivial⟩

/-! ### A run -/

namespace Sample

/-- The payment is transaction 1, the refund transaction 2. -/
def receipt (n : ℕ) : Receipt where
  status := js "success"
  transactionHash := Bytes32.text (BitVec.ofNat 256 n)
  blockNumber := n
  blockHash := some (BitVec.ofNat 256 n)
  transactionIndex := 0
  logs := [⟨token, some 0, [], []⟩]

def chain : Chain where
  chainId := 5042002
  receipt hash := if hash = 1 then some (receipt 1) else if hash = 2 then some (receipt 2) else none
  blockHash n := BitVec.ofNat 256 n

/-- Every log is a transfer of 10 from the seller to the payer. -/
def services : Services where
  host := .plain
  deploymentChainId := some 5042002
  reviewSigners := []
  decodeTransfer _ _ := some (js "seller", Address.text 3, 10)

def request : ServiceRequest where
  orderId := 7
  agentId := 0
  payer := 3
  serviceHash := 0
  inputHash := 0
  category := .compute
  unit := []
  quantity := 1
  unitPriceAtomic := 10
  amountAtomic := 10
  settlementAddress := 0
  ledgerAddress := 0
  transactionHash := 1
  input := .null

def order : Order where
  orderId := 7
  userId := js "owner"
  ownerAddress := js "owner"
  request := request.json
  seller := js "seller"
  state := js "paid"
  outputHash := none
  output := .null

def refundRequest : Json :=
  .obj [(js "action", .str (js "refund")), (js "transactionHash", .str (Bytes32.text 2)),
    (js "logIndex", .num 0), (js "amountAtomic", .str (js "10"))]

theorem fault_other : fault (.thrown .other) := ⟨trivial, by simp [ApiError.outOfRange]⟩

/-- The answers; with `loses` those of `COMMIT` are lost. -/
def answer (loses : Bool) := Transactions.respond schema (.thrown .other) loses chain.reply

theorem work_answer {lost : Prop} {loses : Bool} (h : loses = true → lost) (d : Worlds Unit)
    (o : Transactions.Effect Lock Query ChainCall) :
    (system chain services lost).sem () d o (answer loses d o).1 (answer loses d o).2 :=
  Transactions.respond_work fault_other h chain.answers_reply d o

/-- The order is put. -/
@[irreducible] def ordered : Worlds Unit :=
  ((putOrder services order).exec (answer false) (World.idle Tables.empty (Outside.start 5))).2

/-- The seller asks for the refund to be recorded. -/
@[irreducible] def refunded : Worlds Unit :=
  ((recoveryAction services ⟨js "seller", js "seller"⟩ (Bytes32.text 7) refundRequest).exec (answer false)
    ordered).2

theorem run_ordered (lost : Prop) : ∃ τ, (system chain services lost).lts.Run
    (System.State.idle (World.idle Tables.empty (Outside.start 5))) τ ⟨ordered, fun _ => none⟩ := by
  unfold ordered
  exact System.run_exec (S := system chain services lost)
    (s := (System.State.idle (World.idle Tables.empty (Outside.start 5)) : State Unit)) (i := ())
    (work_answer fun h : false = true => by cases h) rfl ⟨rfl, .order order⟩

theorem idle_ordered : ordered.txs () = none := by
  have hnone : (ordered.txs ()).isNone = true := by decide +kernel
  exact Option.isNone_iff_eq_none.1 hnone

theorem run_refunded : ∃ τ, (system chain services False).lts.Run
    (System.State.idle (World.idle Tables.empty (Outside.start 5))) τ ⟨refunded, fun _ => none⟩ := by
  obtain ⟨τ, hrun⟩ := run_ordered False
  obtain ⟨σ, hrun'⟩ := System.run_exec (S := system chain services False)
    (s := (⟨ordered, fun _ => none⟩ : State Unit)) (i := ())
    (work_answer fun h : false = true => by cases h) rfl
    ⟨idle_ordered, .action ⟨js "seller", js "seller"⟩ (Bytes32.text 7) refundRequest⟩
  unfold refunded
  exact ⟨_, hrun.append hrun'⟩

end Sample

end Recovery

end Obolos
