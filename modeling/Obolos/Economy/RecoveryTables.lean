import Obolos.Economy.Recovery

/-!
# What the recovery tables keep

The chain has final blocks: what the client says of them never changes, and a refund is genuine when
the final part of the chain has its transfer, after the payment as the client has reported it
(`Genuine`).  `Holds` is the invariant of the tables,
`Later` how they change, and `Same` which part of them a lock protects; each statement that inserts a
row keeps them (`Kept`).
-/

namespace Obolos

namespace Recovery

open Transactions (Discipline)

/-- A chain, with the receipts and the hashes of its final blocks. -/
structure Chain where
  chainId : ℕ
  receipt : Bytes32 → Option Receipt
  blockHash : ℕ → Bytes32

/-- What the client answers when the blocks up to `w` are final.  A receipt is the one of the chain,
or of a block that is not in it; the receipt of a final block is the one of the chain.  The hash of a
final block is the one of the chain. -/
def Chain.Answers (C : Chain) (w : ℕ) : (o : ChainCall) → ChainAnswer o → Prop
  | .getChainId, n => n = C.chainId
  | .getTransactionReceipt hash, receipt =>
      (C.receipt hash = some receipt ∨
        receipt.blockHash ≠ some (C.blockHash receipt.blockNumber)) ∧
      ∀ final, C.receipt hash = some final → final.blockNumber ≤ w → receipt = final
  | .finalizedBlock, n => n ≤ w
  | .getBlock n, hash => n ≤ w → hash = C.blockHash n
  | .readControllerBindings _ _, _ => True

/-- A receipt that the client has answered, and up to where the blocks were final then. -/
structure Reading where
  final : ℕ
  hash : Bytes32
  receipt : Receipt

/-- What is outside of the database: up to where the blocks are final, and the receipts that were
answered. -/
structure Outside where
  final : ℕ
  readings : List Reading

/-- Before the first call. -/
def Outside.start (final : ℕ) : Outside := ⟨final, []⟩

/-- More blocks become final. -/
def Outside.turn (w w' : Outside) : Prop := ∃ final, w.final ≤ final ∧ w' = { w with final := final }

/-- The receipts are recorded. -/
def Outside.after (w : Outside) : (o : ChainCall) → Except ApiError (ChainAnswer o) → Outside
  | .getTransactionReceipt hash, .ok receipt =>
    { w with readings := w.readings ++ [⟨w.final, hash, receipt⟩] }
  | _, _ => w

/-- A call of the client: an answer, or an exception. -/
def Chain.answers (C : Chain) (w : Outside) (o : ChainCall) (r : Except ApiError (ChainAnswer o))
    (w' : Outside) : Prop :=
  w' = w.after o r ∧ ((∃ a, r = .ok a ∧ C.Answers w.final o a) ∨ ∃ e, r = .error (.thrown e))

/-- The reading is an answer of the chain. -/
def Reading.Of (C : Chain) (x : Reading) : Prop :=
  C.Answers x.final (.getTransactionReceipt x.hash) x.receipt

/-- What happens outside: more blocks are final, and more answers of the chain were read. -/
structure Outside.Later (C : Chain) (w w' : Outside) : Prop where
  final : w.final ≤ w'.final
  readings : w.readings ⊆ w'.readings
  answers : ∀ x ∈ w'.readings, x ∈ w.readings ∨ x.Of C

theorem Outside.Later.refl (C : Chain) (w : Outside) : w.Later C w :=
  ⟨le_rfl, List.Subset.refl _, fun _ hx => Or.inl hx⟩

theorem Outside.Later.trans {C : Chain} {w w' w'' : Outside} (h : w.Later C w')
    (h' : w'.Later C w'') : w.Later C w'' :=
  ⟨h.final.trans h'.final, fun _ hx => h'.readings (h.readings hx), fun x hx =>
    (h'.answers x hx).elim (h.answers x) Or.inr⟩

theorem Outside.turn.later {C : Chain} {w w' : Outside} (h : w.turn w') : w.Later C w' := by
  obtain ⟨final, hle, rfl⟩ := h
  exact ⟨hle, List.Subset.refl _, fun _ hx => Or.inl hx⟩

theorem Chain.answers.later {C : Chain} {w w' : Outside} {o : ChainCall}
    {r : Except ApiError (ChainAnswer o)} (h : C.answers w o r w') : w.Later C w' := by
  obtain ⟨rfl, hanswer⟩ := h
  cases o with
  | getTransactionReceipt hash =>
    rcases hanswer with ⟨receipt, rfl, hreceipt⟩ | ⟨e, rfl⟩
    · refine ⟨le_rfl, List.subset_append_left _ _, fun x hx => ?_⟩
      rcases List.mem_append.1 hx with hx | hx
      · exact Or.inl hx
      · rw [List.mem_singleton.1 hx]
        exact Or.inr hreceipt
    · exact .refl C w
  | getChainId => exact .refl C w
  | finalizedBlock => exact .refl C w
  | getBlock n => exact .refl C w
  | readControllerBindings addresses n => exact .refl C w

/-- A lost connection, or another error that has nothing to do with the statement. -/
def fault (e : ApiError) : Prop := e.lost ∧ e ≠ .outOfRange

variable (C : Chain) (Sv : Services)

/-- **A genuine refund**: a final transaction of the chain, after a receipt that was read of the
payment, has a log of the canonical token that is a transfer of this amount from the seller to the
payer. -/
structure Genuine (w : Outside) (request : ServiceRequest) (r : Refund) : Prop where
  payer : r.payer = request.payer
  transfer : ∃ receipt paid log sender recipient,
    C.receipt r.transactionHash = some receipt ∧ receipt.blockNumber ≤ w.final ∧
      receipt.status = js "success" ∧ receipt.transactionHash.toLowerCase = r.transactionHash.text ∧
      (paid ∈ w.readings ∧ paid.hash = request.transactionHash) ∧
      (paid.receipt.blockNumber < receipt.blockNumber ∨
        paid.receipt.blockNumber = receipt.blockNumber ∧
          paid.receipt.transactionIndex < receipt.transactionIndex) ∧
      log ∈ receipt.logs ∧ log.logIndex = some r.logIndex ∧ log.address.toLowerCase = token ∧
      Sv.decodeTransfer log.topics log.data = some (sender, recipient, r.amountAtomic) ∧
      sender.toLowerCase = r.seller.toLowerCase ∧
      recipient.toLowerCase = r.payer.text.toLowerCase

variable {C Sv} in
theorem Genuine.mono {w w' : Outside} {request : ServiceRequest} {r : Refund}
    (h : Genuine C Sv w request r) (hw : w.Later C w') : Genuine C Sv w' request r := by
  obtain ⟨receipt, paid, log, sender, recipient, hreceipt, hfinal, hstatus, hhash, ⟨hpaid, hof⟩,
    hrest⟩ := h.transfer
  exact ⟨h.payer, receipt, paid, log, sender, recipient, hreceipt, hfinal.trans hw.final, hstatus,
    hhash, ⟨hw.readings hpaid, hof⟩, hrest⟩

/-- What never changes of an order. -/
def Order.terms (o : Order) : Bytes32 × JsString × JsString × Json × JsString :=
  (o.orderId, o.userId, o.ownerAddress, o.request, o.seller)

/-- The request of an order. -/
def Order.Requests (o : Order) (request : ServiceRequest) : Prop :=
  ServiceRequest.parse Sv.host o.request = .ok request

/-- **What the tables keep.** -/
structure Holds (t : Tables) (w : Outside) : Prop where
  readings : ∀ x ∈ w.readings, x.Of C
  orders : (t.orders.map (·.orderId)).Nodup
  disputes : (t.disputes.map (·.orderId)).Nodup
  refunds : (t.refunds.map Refund.key).Nodup
  reviews : (t.reviews.map Review.key).Nodup
  /-- A refund is a genuine one of an order. -/
  genuine : ∀ r ∈ t.refunds, r.logIndex ≤ int4Max ∧ ∃ o ∈ t.orders, ∃ request,
    o.orderId = r.orderId ∧ o.Requests Sv request ∧ r.seller = o.seller.toLowerCase ∧
      Genuine C Sv w request r
  /-- The refunds of an order are at most what was paid. -/
  refunded : ∀ o ∈ t.orders, ∀ request, o.Requests Sv request →
    t.refunded o.orderId ≤ request.amountAtomic

/-- Rows are appended, and the terms of an order stay. -/
structure Later (t t' : Tables) : Prop where
  orders : ∀ o ∈ t.orders, ∃ o' ∈ t'.orders, o'.terms = o.terms
  disputes : t.disputes <+: t'.disputes
  refunds : t.refunds <+: t'.refunds
  reviews : t.reviews <+: t'.reviews

/-- A lock protects the refunds of the order, or the value of the primary key. -/
def Same : Lock → Tables → Tables → Prop
  | .order id, t, t' => t'.refundsOf id = t.refundsOf id
  | .dispute id, t, t' => id ∈ t'.disputes.map (·.orderId) ↔ id ∈ t.disputes.map (·.orderId)
  | .refund key, t, t' => key ∈ t'.refunds.map Refund.key ↔ key ∈ t.refunds.map Refund.key
  | .review key, t, t' => key ∈ t'.reviews.map Review.key ↔ key ∈ t.reviews.map Review.key

theorem Same.refl (k : Lock) (t : Tables) : Same k t t := by
  cases k with
  | order id => exact rfl
  | dispute id => exact Iff.rfl
  | refund key => exact Iff.rfl
  | review key => exact Iff.rfl

theorem Same.trans {k : Lock} {t t' t'' : Tables} (h : Same k t t') (h' : Same k t' t'') :
    Same k t t'' := by
  cases k with
  | order id => exact Eq.trans h' h
  | dispute id => exact Iff.trans h' h
  | refund key => exact Iff.trans h' h
  | review key => exact Iff.trans h' h

theorem Later.refl (t : Tables) : Later t t :=
  ⟨fun o ho => ⟨o, ho, rfl⟩, List.prefix_rfl, List.prefix_rfl, List.prefix_rfl⟩

theorem Later.trans {t t' t'' : Tables} (h : Later t t') (h' : Later t' t'') : Later t t'' := by
  refine ⟨fun o ho => ?_, h.disputes.trans h'.disputes, h.refunds.trans h'.refunds,
    h.reviews.trans h'.reviews⟩
  obtain ⟨o', ho', hterms⟩ := h.orders o ho
  obtain ⟨o'', ho'', hterms'⟩ := h'.orders o' ho'
  exact ⟨o'', ho'', hterms'.trans hterms⟩

/-- What the transactions of the recovery tables obey. -/
def discipline : Discipline Lock Tables Outside where
  inv := Holds C Sv
  later := Later
  later_refl := Later.refl
  later_trans _ _ _ := Later.trans
  same := Same
  same_refl := Same.refl
  same_trans _ _ _ _ := Same.trans
  outside := Outside.Later C
  outside_refl := .refl C
  outside_trans _ _ _ := .trans
  inv_outside t w w' h hw := { h with
    readings := fun x hx => (hw.answers x hx).elim (h.readings x) id
    genuine := fun r hr => by
      obtain ⟨hindex, o, ho, request, hid, hrequest, hseller, hgenuine⟩ := h.genuine r hr
      exact ⟨hindex, o, ho, request, hid, hrequest, hseller, hgenuine.mono hw⟩ }

/-- What a transaction with these locks must do to the tables. -/
def Kept (held : List Lock) (t : Tables) (w : Outside) (t' : Tables) : Prop :=
  Holds C Sv t' w ∧ Later t t' ∧ ∀ k ∉ held, Same k t t'

variable {C Sv} {t t' : Tables} {w : Outside} {held : List Lock}

theorem Kept.refl (h : Holds C Sv t w) : Kept C Sv held t w t :=
  ⟨h, Later.refl t, fun k _ => Same.refl k t⟩

/-! ### Orders -/

theorem Order.Requests.of_terms {o o' : Order} (h : o'.terms = o.terms) {request : ServiceRequest} :
    o'.Requests Sv request ↔ o.Requests Sv request := by
  have hrequest : o'.request = o.request := congrArg (fun x => x.2.2.2.1) h
  rw [Order.Requests, Order.Requests, hrequest]

/-- The order is in the table, up to its delivery. -/
def Tables.Has (t : Tables) (o : Order) : Prop := ∃ o' ∈ t.orders, o'.terms = o.terms

theorem Later.has {o : Order} (h : Later t t') (ho : t.Has o) : t'.Has o := by
  obtain ⟨o₁, ho₁, hterms₁⟩ := ho
  obtain ⟨o₂, ho₂, hterms₂⟩ := h.orders o₁ ho₁
  exact ⟨o₂, ho₂, hterms₂.trans hterms₁⟩

/-- The rows of `putRow`. -/
theorem mem_putRow {order o : Order} {rows : List Order} (h : o ∈ putRow order rows) :
    (∃ row ∈ rows, o.terms = row.terms) ∨
      (o = order ∧ ∀ row ∈ rows, row.orderId ≠ order.orderId) := by
  unfold putRow at h
  split at h
  · obtain ⟨row, hrow, rfl⟩ := List.mem_map.1 h
    refine Or.inl ⟨row, hrow, ?_⟩
    split
    · rfl
    · rfl
  · rename_i hnone
    rcases List.mem_append.1 h with ho | ho
    · exact Or.inl ⟨o, ho, rfl⟩
    · refine Or.inr ⟨List.mem_singleton.1 ho, fun row hrow hid => hnone ?_⟩
      exact List.any_eq_true.2 ⟨row, hrow, decide_eq_true hid⟩

theorem has_putRow (order : Order) (t : Tables) {row : Order} (h : row ∈ t.orders) :
    ∃ o' ∈ putRow order t.orders, o'.terms = row.terms := by
  unfold putRow
  split
  · refine ⟨_, List.mem_map.2 ⟨row, h, rfl⟩, ?_⟩
    split
    · rfl
    · rfl
  · exact ⟨row, List.mem_append_left _ h, rfl⟩

theorem putRow_ids (order : Order) (rows : List Order) :
    (putRow order rows).map (·.orderId) = if order.orderId ∈ rows.map (·.orderId) then
      rows.map (·.orderId) else rows.map (·.orderId) ++ [order.orderId] := by
  have hany : (rows.any fun row => row.orderId = order.orderId) = true ↔
      order.orderId ∈ rows.map (·.orderId) := by
    simp only [List.any_eq_true, decide_eq_true_eq, List.mem_map]
  unfold putRow
  by_cases h : order.orderId ∈ rows.map (·.orderId)
  · rw [if_pos (hany.2 h), if_pos h, List.map_map]
    refine List.map_congr_left fun row _ => ?_
    show (if row.orderId = order.orderId then row.deliver order else row).orderId = row.orderId
    split
    · rfl
    · rfl
  · rw [if_neg fun hr => h (hany.1 hr), if_neg h, List.map_append]
    rfl

theorem kept_putOrder {order : Order} (h : Holds C Sv t w) :
    Kept C Sv held t w { t with orders := putRow order t.orders } := by
  have hfresh : (∀ row ∈ t.orders, row.orderId ≠ order.orderId) → t.refunded order.orderId = 0 := by
    intro hnone
    have hnil : t.refundsOf order.orderId = [] := by
      refine List.filter_eq_nil_iff.2 fun r hr hid => ?_
      obtain ⟨-, o, ho, -, heq, -⟩ := h.genuine r hr
      exact hnone o ho (heq.trans (of_decide_eq_true hid))
    rw [Tables.refunded, hnil]
    rfl
  have hid : ∀ {o o' : Order}, o.terms = o'.terms → o.orderId = o'.orderId :=
    fun h => congrArg Prod.fst h
  refine ⟨{ h with
    orders := ?_
    genuine := fun r hr => ?_
    refunded := fun o ho request hrequest => ?_ },
    ⟨fun o ho => has_putRow order t ho, List.prefix_rfl, List.prefix_rfl, List.prefix_rfl⟩,
    fun k _ => by cases k <;> first | exact rfl | exact Iff.rfl⟩
  · show ((putRow order t.orders).map (·.orderId)).Nodup
    rw [putRow_ids]
    split
    · exact h.orders
    · exact List.nodup_append.2 ⟨h.orders, List.nodup_singleton _, fun a ha b hb hab =>
        ‹order.orderId ∉ _› (List.mem_singleton.1 hb ▸ hab ▸ ha)⟩
  · obtain ⟨hindex, o, ho, request, hoid, hrequest, hseller, hgenuine⟩ := h.genuine r hr
    obtain ⟨o', ho', hterms⟩ := has_putRow order t ho
    have hseller' : o'.seller = o.seller := congrArg (fun x => x.2.2.2.2) hterms
    exact ⟨hindex, o', ho', request, (hid hterms).trans hoid,
      (Order.Requests.of_terms hterms).2 hrequest, by rw [hseller, hseller'], hgenuine⟩
  · show t.refunded o.orderId ≤ _
    rcases mem_putRow ho with ⟨row, hrow, hterms⟩ | ⟨rfl, hnone⟩
    · rw [hid hterms]
      exact h.refunded row hrow request ((Order.Requests.of_terms hterms).1 hrequest)
    · rw [hfresh hnone]
      exact Nat.zero_le _

/-! ### Inserted rows -/

theorem nodup_concat {α β : Type} {f : α → β} {l : List α} {a : α} (h : (l.map f).Nodup)
    (ha : f a ∉ l.map f) : ((l ++ [a]).map f).Nodup := by
  rw [List.map_append]
  exact List.nodup_append.2 ⟨h, List.nodup_singleton _, fun x hx y hy hxy =>
    ha (List.mem_singleton.1 hy ▸ hxy ▸ hx)⟩

theorem mem_map_concat {α β : Type} {f : α → β} {l : List α} {a : α} {b : β} (h : b ≠ f a) :
    b ∈ (l ++ [a]).map f ↔ b ∈ l.map f := by
  simp [h]

theorem kept_insertDispute {dispute : Dispute} (h : Holds C Sv t w)
    (hnew : dispute.orderId ∉ t.disputes.map (·.orderId)) (hheld : .dispute dispute.orderId ∈ held) :
    Kept C Sv held t w { t with disputes := t.disputes ++ [dispute] } := by
  refine ⟨{ h with disputes := nodup_concat h.disputes hnew }, ⟨fun o ho => ⟨o, ho, rfl⟩,
    List.prefix_append _ _, List.prefix_rfl, List.prefix_rfl⟩, fun k hk => ?_⟩
  cases k with
  | order id => exact rfl
  | dispute id => exact mem_map_concat fun hid => hk (hid ▸ hheld)
  | refund key => exact Iff.rfl
  | review key => exact Iff.rfl

theorem kept_insertReview {review : Review} (h : Holds C Sv t w)
    (hnew : review.key ∉ t.reviews.map Review.key) (hheld : .review review.key ∈ held) :
    Kept C Sv held t w { t with reviews := t.reviews ++ [review] } := by
  refine ⟨{ h with reviews := nodup_concat h.reviews hnew }, ⟨fun o ho => ⟨o, ho, rfl⟩,
    List.prefix_rfl, List.prefix_rfl, List.prefix_append _ _⟩, fun k hk => ?_⟩
  cases k with
  | order id => exact rfl
  | dispute id => exact Iff.rfl
  | refund key => exact Iff.rfl
  | review key => exact mem_map_concat fun hkey => hk (hkey ▸ hheld)

theorem refundsOf_concat (t : Tables) (r : Refund) (id : Bytes32) :
    ({ t with refunds := t.refunds ++ [r] } : Tables).refundsOf id =
      if r.orderId = id then t.refundsOf id ++ [r] else t.refundsOf id := by
  unfold Tables.refundsOf
  rw [List.filter_append]
  by_cases h : r.orderId = id
  · simp only [List.filter_cons, List.filter_nil, h, decide_true, ↓reduceIte]
  · simp only [List.filter_cons, List.filter_nil, h, decide_false, Bool.false_eq_true, ↓reduceIte,
      List.append_nil]

/-- Orders with one identifier are one order. -/
theorem Holds.order_eq (h : Holds C Sv t w) {o o' : Order} (ho : o ∈ t.orders) (ho' : o' ∈ t.orders)
    (hid : o.orderId = o'.orderId) : o = o' :=
  List.inj_on_of_nodup_map h.orders ho ho' hid

theorem kept_insertRefund {row : Order} {request : ServiceRequest} {r : Refund}
    (h : Holds C Sv t w) (hrow : t.Has row) (hid : r.orderId = row.orderId)
    (hrequest : row.Requests Sv request) (hnew : r.key ∉ t.refunds.map Refund.key)
    (hindex : r.logIndex ≤ int4Max) (hseller : r.seller = row.seller.toLowerCase)
    (hgenuine : Genuine C Sv w request r)
    (hsum : t.refunded row.orderId + r.amountAtomic ≤ request.amountAtomic)
    (horder : .order row.orderId ∈ held) (hheld : .refund r.key ∈ held) :
    Kept C Sv held t w { t with refunds := t.refunds ++ [r] } := by
  obtain ⟨o, ho, hterms⟩ := hrow
  have hoid : o.orderId = row.orderId := congrArg Prod.fst hterms
  have hoseller : o.seller = row.seller := congrArg (fun x => x.2.2.2.2) hterms
  refine ⟨{ h with
    refunds := nodup_concat h.refunds hnew
    genuine := fun x hx => ?_
    refunded := fun o' ho' request' hrequest' => ?_ }, ⟨fun o ho => ⟨o, ho, rfl⟩, List.prefix_rfl,
      List.prefix_append _ _, List.prefix_rfl⟩, fun k hk => ?_⟩
  · rcases List.mem_append.1 hx with hx | hx
    · exact h.genuine x hx
    · rw [List.mem_singleton.1 hx]
      exact ⟨hindex, o, ho, request, hoid.trans hid.symm,
        (Order.Requests.of_terms hterms).2 hrequest, by rw [hseller, hoseller], hgenuine⟩
  · rw [Tables.refunded, refundsOf_concat]
    split
    · rename_i heq
      -- The order of the refund.
      obtain rfl := h.order_eq ho ho' (hoid.trans (hid.symm.trans heq))
      have hrequests := (Order.Requests.of_terms hterms).1 hrequest'
      obtain rfl : request = request' := Except.ok.inj (hrequest.symm.trans hrequests)
      rw [List.map_append, List.sum_append, hoid]
      simpa [Tables.refunded] using hsum
    · exact h.refunded o' ho' request' hrequest'
  · cases k with
    | order id =>
      show Tables.refundsOf _ id = _
      rw [refundsOf_concat, if_neg]
      rintro rfl
      exact hk (hid ▸ horder)
    | dispute id => exact Iff.rfl
    | refund key => exact mem_map_concat fun hkey => hk (hkey ▸ hheld)
    | review key => exact Iff.rfl

end Recovery

end Obolos
