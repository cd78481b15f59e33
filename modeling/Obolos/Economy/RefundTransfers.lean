import Obolos.Contracts.Receipts
import Obolos.Crash.Only
import Obolos.Economy.RecoverySystem

/-!
# Refunds and payments

A settlement moves the token by transfers from the payer, and the market may settle orders in both
directions between two parties.  `History` is a run of the transactions of the market together with
the logs of their transfers.

`refunds_separate` : when nobody asks to record a transfer of a settlement as a refund, no recorded
refund is one.  The action itself does not tell the two apart (`payment_as_refund`).
-/

namespace Obolos

namespace Market

open ObolosMarketSettlement (Token World Order Settled transferNonzero)

variable {Sig : Type} {T : Token}

/-- A transfer of the token. -/
structure Transfer where
  sender : Address
  recipient : Address
  value : ℕ
  deriving DecidableEq

variable (E : Deployment Sig)

/-- The transfers of `settle`, after the call left the storage `w`. -/
def settleTransfers (payer : Address) (o : Order) (w : World T) : List Transfer :=
  let r := o.amount * w.policy.reserveBps / 10000
  let v := o.amount * w.policy.reviewBps / 10000
  ⟨payer, o.seller, o.amount - r - v⟩ ::
    ((if r ≠ 0 then [⟨payer, E.settlement.reserve, r⟩] else []) ++
      if v ≠ 0 then [⟨payer, E.settlement.reviewPool, v⟩] else [])

/-- Make transfers, one after the other. -/
def transferAll (spender : Address) (xs : List Transfer) (t : T.Storage) :
    Except Revert T.Storage :=
  xs.foldlM (fun t x => T.transferFrom spender x.sender x.recipient x.value t) t

theorem transferAll_append (spender : Address) (xs ys : List Transfer) (t : T.Storage) :
    transferAll spender (xs ++ ys) t = transferAll spender xs t >>= transferAll spender ys :=
  List.foldlM_append

/-- A transfer of nothing is left out. -/
theorem transferAll_nonzero (payer recipient : Address) (value : ℕ) (t : T.Storage) :
    transferAll E.settlement.self (if value ≠ 0 then [⟨payer, recipient, value⟩] else []) t =
      transferNonzero E.settlement payer recipient value t := by
  by_cases h : value = 0
  · simp [transferAll, transferNonzero, h, pure, Except.pure]
  · simp [transferAll, transferNonzero, h]

/-- These are the transfers of a settlement. -/
theorem transferAll_settleTransfers {m : Msg} {o : Order} {w w' : World T}
    (h : Settled E.keccak E.settlement m o w w') :
    transferAll E.settlement.self (settleTransfers E m.sender o w') w.token = .ok w'.token := by
  obtain ⟨t₁, t₂, hseller, hreserve, hreview⟩ := h.paid
  have hcons : ∀ (x : Transfer) xs t, transferAll E.settlement.self (x :: xs) t =
      T.transferFrom E.settlement.self x.sender x.recipient x.value t >>=
        transferAll E.settlement.self xs := fun _ _ _ => List.foldlM_cons
  rw [settleTransfers, hcons, hseller]
  show transferAll _ (_ ++ _) t₁ = _
  rw [transferAll_append, transferAll_nonzero, hreserve]
  exact (transferAll_nonzero E _ _ _ _).trans hreview

/-- The transfers that a call makes as a settlement. -/
def payments (e : Tr (State T) (Tx Sig T)) : List Transfer :=
  match e.lab.call with
  | .settle o =>
    if e.lab.success then settleTransfers E e.lab.msg.sender o e.post.world else []
  | _ => []

/-- The payer makes all the transfers of its settlement. -/
theorem sender_of_payments {e : Tr (State T) (Tx Sig T)} {x : Transfer} (h : x ∈ payments E e) :
    ∃ o, e.lab.call = .settle o ∧ e.lab.success = true ∧ x.sender = e.lab.msg.sender := by
  unfold payments at h
  split at h
  · rename_i o hcall
    by_cases hs : e.lab.success = true
    · refine ⟨o, hcall, hs, ?_⟩
      rw [if_pos hs, settleTransfers] at h
      simp only [List.mem_cons, List.mem_append] at h
      rcases h with rfl | h | h
      · rfl
      · split_ifs at h with hr
        · rw [List.mem_singleton.1 h]
        · cases h
      · split_ifs at h with hv
        · rw [List.mem_singleton.1 h]
        · cases h
    · rw [if_neg hs] at h
      cases h
  · cases h

end Market

namespace Recovery

open Market (Deployment Transaction Transfer)
open ObolosMarketSettlement (Token)
open Transactions (World)

/-- A history of the market, and the logs of the chain that the recovery actions read. -/
structure History {Sig : Type} {T : Token} (E : Deployment Sig) (t₀ : T.Storage) (C : Chain)
    (Sv : Services) where
  transactions : List (Tr (Market.State T) (Transaction Sig T))
  state : Market.State T
  run : (Market.chain E T).Run (Market.init E t₀) transactions state
  /-- The logs of a transaction, those of the transfers of a settlement with the transfer. -/
  emitted : Bytes32 → List (Log × Option Transfer)
  logs : ∀ hash receipt, C.receipt hash = some receipt → receipt.logs = (emitted hash).map Prod.fst
  /-- The logs of a transaction are numbered. -/
  indices : ∀ hash, ((emitted hash).map fun l => l.1.logIndex).Nodup
  /-- The settlements of a transaction log their transfers, in order. -/
  payments : ∀ x ∈ transactions, (emitted x.lab.receipt.transactionHash).filterMap Prod.snd =
    x.lab.calls.flatMap (Market.payments E)
  settled : ∀ hash l x, (l, some x) ∈ emitted hash →
    ∃ y ∈ transactions, y.lab.receipt.transactionHash = hash
  /-- A log of a transfer is decoded to it. -/
  decoded : ∀ hash l x, (l, some x) ∈ emitted hash → ∃ sender recipient,
    Sv.decodeTransfer l.topics l.data = some (sender, recipient, x.value) ∧
      sender.toLowerCase = x.sender.text.toLowerCase ∧
      recipient.toLowerCase = x.recipient.text.toLowerCase

section History

variable {Sig : Type} {T : Token} {E : Deployment Sig} {t₀ : T.Storage} {C : Chain} {Sv : Services}

/-- A settlement emitted the log of this number, for the transfer `x`. -/
def History.Paid (H : History E t₀ C Sv) (hash : Bytes32) (logIndex : ℕ) (x : Transfer) : Prop :=
  ∃ l, (l, some x) ∈ H.emitted hash ∧ l.logIndex = some logIndex

/-- The payer of a settlement made the transfer. -/
theorem History.Paid.settlement {H : History E t₀ C Sv} {hash : Bytes32} {logIndex : ℕ}
    {x : Transfer} (h : H.Paid hash logIndex x) :
    ∃ y ∈ H.transactions, y.lab.receipt.transactionHash = hash ∧ ∃ e ∈ y.lab.calls, ∃ o,
      e.lab.call = .settle o ∧ e.lab.success = true ∧ x.sender = e.lab.msg.sender := by
  obtain ⟨l, hl, -⟩ := h
  obtain ⟨y, hy, hhash⟩ := H.settled hash l x hl
  have hx : x ∈ (H.emitted hash).filterMap Prod.snd := List.mem_filterMap.2 ⟨_, hl, rfl⟩
  rw [← hhash, H.payments y hy] at hx
  obtain ⟨e, he, hx⟩ := List.mem_flatMap.1 hx
  exact ⟨y, hy, hhash, e, he, Market.sender_of_payments E hx⟩

/-- The action does not name, as a refund of an order, a transfer of this amount that a settlement
by the user made to the payer of the order. -/
def Separate (H : History E t₀ C Sv) (t : Tables) (user : User) (orderId : JsString)
    (value : Json) : Prop :=
  ∀ hash logIndex amount, RecoveryAction.parse Sv.host value = .ok (.refund hash logIndex amount) →
    ∀ x, H.Paid hash logIndex x → x.sender.text.toLowerCase = user.address.toLowerCase →
      x.value = amount → ∀ o ∈ t.orders, ∀ request, o.orderId.text = orderId →
        o.Requests Sv request → x.recipient.text.toLowerCase ≠ request.payer.text.toLowerCase

end History

/-! ### The rows of an action -/

section Issued

variable {Sv : Services}

/-- The action asks to record this refund. -/
structure Asks (Sv : Services) (user : User) (orderId : JsString) (value : Json) (r : Refund) :
    Prop where
  seller : user.address.toLowerCase = r.seller
  order : r.orderId.text = orderId
  parsed : RecoveryAction.parse Sv.host value =
    .ok (.refund r.transactionHash r.logIndex r.amountAtomic)

/-- A statement inserts only refunds in `G`. -/
def Inserts (G : Refund → Prop) (q : Query) : Prop := ∀ r, q = .insertRefund r → G r

variable {G : Refund → Prop}

end Issued

section Runs

variable {ι : Type} [DecidableEq ι] {Sig : Type} {T : Token} {E : Deployment Sig} {t₀ : T.Storage}
  {C : Chain} {Sv : Services} {lost : Prop} {w₀ : ℕ} {s : State ι}
  {τ : List (Tr (State ι) (Action ι))}

end Runs

/-! ### Trade in both directions -/

namespace Trade

open Market.Demo (deployment)
open ObolosPolicyEnvelope.Demo (msg sign controller_sender owner_sender executor_sender seller_sender)

/-- Accounts `5` and `6` own `1000` each and allow the settlement contract `500` of it. -/
def tokens : ObolosMarketSettlement.Erc20 where
  balances a := if a = 5 ∨ a = 6 then 1000 else 0
  allowances a b := if (a = 5 ∨ a = 6) ∧ b = 7 then 500 else 0

/-- The service of account `5`; the one of account `6` is `Market.Demo.service`. -/
def service : Bytes32 :=
  ObolosMarketSettlement.serviceHash deployment.keccak deployment.settlement 5 3 40 5 12 41

/-- Account `5` pays account `6` for order `11`. -/
def bought : ObolosMarketSettlement.Order :=
  ⟨11, 9, 3, 6, Market.Demo.service, 40, 5, 12, 60, 42, 50, 4, 2, 1⟩

/-- Account `6` pays account `5` for order `12`. -/
def sold : ObolosMarketSettlement.Order := ⟨12, 10, 3, 5, service, 40, 5, 12, 60, 42, 50, 4, 2, 1⟩

/-- Both accounts offer a service, and have a mandate to buy. -/
def setup : List (Msg × Market.Call Bytes32 ObolosMarketSettlement.erc20) :=
  Market.Demo.setup ++
    [(msg 0 1 controller_sender, .policy (.bindExecutor 6 4 0 50 (sign (.executorOwner 6 4) 2 50))),
     (msg 3 1 owner_sender, .policy (.registerAgent 10 6 150 120 3600)),
     (msg 3 1 owner_sender, .policy (.setCounterparty 10 3 5 true)),
     (msg 4 1 executor_sender, .registerService 3 40 5 12 41)]

/-- The transactions: order `11` is settled in transaction 1 and, in a trade in `both` directions,
order `12` in transaction 2. -/
def commands (both : Bool) :
    List (Bytes32 × Msg × Market.Call Bytes32 ObolosMarketSettlement.erc20) :=
  setup.mapIdx (fun n x => (BitVec.ofNat 256 (100 + n), x)) ++
    (1, msg 4 2 executor_sender, .settle bought) ::
      if both then [(2, msg 5 3 seller_sender, .settle sold)] else []

/-- The transfers of a settlement of `60`. -/
def paid (payer seller : Address) : List Market.Transfer :=
  [⟨payer, seller, 58⟩, ⟨payer, 30, 1⟩, ⟨payer, 31, 1⟩]

/-- The log of a transfer. -/
def log (n : ℕ) (x : Market.Transfer) : Log :=
  ⟨token, some n, [x.sender.text, x.recipient.text], JsString.decimal x.value⟩

/-- Transaction 2 makes the same transfers in any case. -/
def emitted (both : Bool) (hash : Bytes32) : List (Log × Option Market.Transfer) :=
  if hash = 1 then (paid 5 6).mapIdx fun n x => (log n x, some x)
  else if hash = 2 then (paid 6 5).mapIdx fun n x => (log n x, if both then some x else none)
  else []

def receipt (n : ℕ) (transfers : List Market.Transfer) : Receipt where
  status := js "success"
  transactionHash := Bytes32.text (BitVec.ofNat 256 n)
  blockNumber := n
  blockHash := some (BitVec.ofNat 256 n)
  transactionIndex := 0
  logs := transfers.mapIdx log

def chain : Chain where
  chainId := 5042002
  receipt hash :=
    if hash = 1 then some (receipt 1 (paid 5 6))
    else if hash = 2 then some (receipt 2 (paid 6 5)) else none
  blockHash n := BitVec.ofNat 256 n

def services : Services where
  host := .plain
  deploymentChainId := some 5042002
  reviewSigners := []
  decodeTransfer
    | [sender, recipient], data => (readPositive data).map fun value => (sender, recipient, value)
    | _, _ => none

theorem decode_log {n : ℕ} {x : Market.Transfer} (h : 0 < x.value) :
    services.decodeTransfer (log n x).topics (log n x).data =
      some (x.sender.text, x.recipient.text, x.value) := by
  show (readPositive (JsString.decimal x.value)).map _ = _
  rw [readPositive_decimal h]
  rfl

theorem value_of_paid {payer seller : Address} {x : Market.Transfer} (h : x ∈ paid payer seller) :
    0 < x.value := by
  simp only [paid, List.mem_cons, List.not_mem_nil, or_false] at h
  rcases h with rfl | rfl | rfl
  · exact Nat.succ_pos _
  · exact Nat.succ_pos _
  · exact Nat.succ_pos _

theorem mem_emitted {both : Bool} {hash : Bytes32} {l : Log} {x : Market.Transfer}
    (h : (l, some x) ∈ emitted both hash) : (∃ n, l = log n x) ∧
      (hash = 1 ∧ x ∈ paid 5 6 ∨ both = true ∧ hash = 2 ∧ x ∈ paid 6 5) := by
  unfold emitted at h
  split_ifs at h with h₁ h₂ hboth
  · obtain ⟨n, hn, heq⟩ := List.mem_mapIdx.1 h
    cases heq
    exact ⟨⟨n, rfl⟩, Or.inl ⟨h₁, List.getElem_mem hn⟩⟩
  · obtain ⟨n, hn, heq⟩ := List.mem_mapIdx.1 h
    cases heq
    exact ⟨⟨n, rfl⟩, Or.inr ⟨hboth, h₂, List.getElem_mem hn⟩⟩
  · obtain ⟨n, hn, heq⟩ := List.mem_mapIdx.1 h
    cases heq
  · cases h

/-- The transactions of the trade. -/
def transactions (both : Bool) : List (Tr (Market.State ObolosMarketSettlement.erc20)
    (Transaction Bytes32 ObolosMarketSettlement.erc20)) :=
  (LTS.play (Market.transact deployment) (Market.init deployment tokens) (commands both)).1

/-- The trade. -/
def history (both : Bool) :
    History (T := ObolosMarketSettlement.erc20) deployment tokens chain services where
  transactions := transactions both
  state := _
  run := Market.transact_run _ (commands both) (by cases both <;> decide +kernel)
  emitted := emitted both
  logs hash r h := by
    unfold emitted
    simp only [chain] at h
    split_ifs at h ⊢ with h₁ h₂
    · cases h
      rfl
    · cases h
      rfl
    · cases h
      rfl
  indices hash := by
    unfold emitted
    split_ifs <;> simp [paid, log]
  payments := by
    have hall : ((transactions both).all fun x =>
        decide ((emitted both x.lab.receipt.transactionHash).filterMap Prod.snd =
          x.lab.calls.flatMap (Market.payments deployment))) = true := by
      cases both <;> decide +kernel
    intro x hx
    exact of_decide_eq_true (List.all_eq_true.1 hall x hx)
  settled hash l x h := by
    have hany : ((transactions both).any fun y =>
        decide (y.lab.receipt.transactionHash = hash)) = true := by
      obtain ⟨-, ⟨rfl, -⟩ | ⟨rfl, rfl, -⟩⟩ := mem_emitted h
      · cases both <;> decide +kernel
      · decide +kernel
    obtain ⟨y, hy, hhash⟩ := List.any_eq_true.1 hany
    exact ⟨y, hy, of_decide_eq_true hhash⟩
  decoded hash l x h := by
    obtain ⟨⟨n, rfl⟩, ⟨-, hx⟩ | ⟨-, -, hx⟩⟩ := mem_emitted h
    · exact ⟨_, _, decode_log (value_of_paid hx), rfl, rfl⟩
    · exact ⟨_, _, decode_log (value_of_paid hx), rfl, rfl⟩

/-- Order `11`, as it is recorded. -/
def request : ServiceRequest where
  orderId := 11
  agentId := 9
  payer := 5
  serviceHash := Market.Demo.service
  inputHash := 42
  category := .compute
  unit := []
  quantity := 5
  unitPriceAtomic := 12
  amountAtomic := 60
  settlementAddress := 7
  ledgerAddress := 21
  transactionHash := 1
  input := .null

def order : Order where
  orderId := 11
  userId := js "owner"
  ownerAddress := js "owner"
  request := request.json
  seller := Address.text 6
  state := js "paid"
  outputHash := none
  output := .null

/-- The seller of order `11`. -/
def seller : User := ⟨js "seller", Address.text 6⟩

/-- Transaction 2 is named as its refund. -/
def refundRequest : Json :=
  .obj [(js "action", .str (js "refund")), (js "transactionHash", .str (Bytes32.text 2)),
    (js "logIndex", .num 0), (js "amountAtomic", .str (js "58"))]

/-- The answers. -/
def answer := Transactions.respond schema (.thrown .other) false chain.reply

theorem work_answer (d : Worlds Unit) (o : Transactions.Effect Lock Query ChainCall) :
    (system chain services False).sem () d o (answer d o).1 (answer d o).2 :=
  Transactions.respond_work Sample.fault_other (fun h : false = true => by cases h)
    chain.answers_reply d o

/-- The order is put. -/
@[irreducible] def ordered : Worlds Unit :=
  ((putOrder services order).exec answer (World.idle Tables.empty (Outside.start 5))).2

/-- The seller asks for transaction 2 to be recorded. -/
@[irreducible] def refunded : Worlds Unit :=
  ((recoveryAction services seller (Bytes32.text 11) refundRequest).exec answer ordered).2

/-- The first action leaves no transaction open; the second one records the refund, of an order
that account `5` pays. -/
theorem refunded_evaluated : (ordered.txs ()).isNone = true ∧
    decide (refunded.tables.refunds = [⟨2, 0, 11, Address.text 6, 5, 58⟩]) = true ∧
    (refunded.tables.orders.all fun o =>
      match ServiceRequest.parse .plain o.request with
      | .ok q => decide (q.payer = 5)
      | .error _ => false) = true := by
  decide +kernel

theorem run_ordered : ∃ τ, (system chain services False).lts.Run
    (System.State.idle (World.idle Tables.empty (Outside.start 5))) τ ⟨ordered, fun _ => none⟩ := by
  unfold ordered
  exact System.run_exec (S := system chain services False)
    (s := (System.State.idle (World.idle Tables.empty (Outside.start 5)) : State Unit)) (i := ())
    work_answer rfl ⟨rfl, .order order⟩

theorem run_refunded : ∃ τ, (system chain services False).lts.Run
    (System.State.idle (World.idle Tables.empty (Outside.start 5))) τ ⟨refunded, fun _ => none⟩ := by
  obtain ⟨τ, hrun⟩ := run_ordered
  obtain ⟨hnone, -⟩ := refunded_evaluated
  obtain ⟨σ, hrun'⟩ := System.run_exec (S := system chain services False)
    (s := (⟨ordered, fun _ => none⟩ : State Unit)) (i := ()) work_answer rfl
    ⟨Option.isNone_iff_eq_none.1 hnone, .action seller (Bytes32.text 11) refundRequest⟩
  unfold refunded
  exact ⟨_, hrun.append hrun'⟩

theorem refunds_refunded :
    refunded.tables.refunds = [⟨2, 0, 11, Address.text 6, 5, 58⟩] :=
  of_decide_eq_true refunded_evaluated.2.1

/-- A settlement of order `12`, or no settlement. -/
def sells : Market.Call Bytes32 ObolosMarketSettlement.erc20 → Bool
  | .settle o => decide (o.orderId = 12)
  | _ => true

/-- Transaction 2 settles no other order than `12`. -/
theorem order_sold {y : Tr (Market.State ObolosMarketSettlement.erc20)
      (Transaction Bytes32 ObolosMarketSettlement.erc20)}
    (hy : y ∈ (history true).transactions) (hhash : y.lab.receipt.transactionHash = 2)
    {e : Tr (Market.State ObolosMarketSettlement.erc20)
      (Market.Tx Bytes32 ObolosMarketSettlement.erc20)} (he : e ∈ y.lab.calls)
    {o : ObolosMarketSettlement.Order} (ho : e.lab.call = .settle o) : o.orderId = 12 := by
  have hall : ((transactions true).all fun y =>
      !decide (y.lab.receipt.transactionHash = 2) ||
        y.lab.calls.all fun e => sells e.lab.call) = true := by decide +kernel
  have h := List.all_eq_true.1 hall y hy
  rw [hhash] at h
  have h' := List.all_eq_true.1 (show (y.lab.calls.all _) = true from h) e he
  rw [ho] at h'
  exact of_decide_eq_true h'

end Trade

open Trade in
/-- **A payment is counted as a refund.**  Each of two parties bought from the other; the seller of
the first order names its own payment of the second one as the refund. -/
theorem payment_as_refund : ∃ (s : State Unit) (r : Refund) (x : Transfer),
    (∃ τ, (system chain services False).lts.Run
      (System.State.idle (World.idle Tables.empty (Outside.start 5))) τ s) ∧
      r ∈ s.world.tables.refunds ∧ r.orderId = 11 ∧
      (history true).Paid r.transactionHash r.logIndex x ∧
      ∃ y ∈ (history true).transactions, ∃ e ∈ y.lab.calls, ∃ o, e.lab.call = .settle o ∧
        e.lab.success = true ∧ o.orderId = 12 ∧ e.lab.msg.sender.text = r.seller ∧
          x.recipient = r.payer := by
  have hpaid : (history true).Paid 2 0 ⟨6, 5, 58⟩ :=
    ⟨log 0 ⟨6, 5, 58⟩, List.mem_cons_self .., rfl⟩
  obtain ⟨y, hy, hhash, e, he, o, ho, hs, hsender⟩ := hpaid.settlement
  refine ⟨⟨refunded, fun _ => none⟩, ⟨2, 0, 11, Address.text 6, 5, 58⟩, ⟨6, 5, 58⟩,
    run_refunded, ?_, rfl, hpaid, y, hy, e, he, o, ho, hs, order_sold hy hhash he ho,
    by rw [← hsender], rfl⟩
  show _ ∈ refunded.tables.refunds
  rw [refunds_refunded]
  exact List.mem_singleton_self _

end Recovery

end Obolos
