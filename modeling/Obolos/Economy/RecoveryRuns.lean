import Obolos.Economy.RecoveryTables

/-!
# The recovery actions, one by one

Every action keeps the tables, whatever the others do meanwhile: the row lock of the order protects
the sum of its refunds until the refund is committed, and the lock of a primary key protects that no
other row has it.
-/

namespace Obolos

namespace Recovery

open Transactions (Tx World Committed In Out Stable spec protocol wp_begin wp_read wp_statement
  wp_outside wp_outside_out wp_commit wp_rollback)

/-- The worlds of the processes `ι`. -/
abbrev Worlds (ι : Type) := World ι Lock Tables Outside

variable {ι : Type} [DecidableEq ι] {C : Chain} {Sv : Services} {lost : Prop}

/-- What process `i` is verified against. -/
abbrev obligations (C : Chain) (Sv : Services) (lost : Prop) (i : ι) :=
  spec (discipline C Sv) schema fault lost C.answers i

variable {i : ι} {tx : Tx Lock Tables} {P F : Tables → Outside → Prop} {n : List (Committed ι Tables)}
  {d : Worlds ι} {held : List Lock}

/-! ### What stays known -/

theorem stable_const (p : Prop) : Stable (discipline C Sv) held fun _ _ => p :=
  fun _ _ _ _ _ _ _ _ h => h

theorem stable_le (m : ℕ) : Stable (discipline C Sv) held fun _ w => m ≤ w.final :=
  fun _ _ _ _ _ _ _ hw h => le_trans h (Outside.Later.final hw)

theorem stable_and (hP : Stable (discipline C Sv) held P) (hF : Stable (discipline C Sv) held F) :
    Stable (discipline C Sv) held fun t w => P t w ∧ F t w :=
  fun _ _ _ _ hinv hlater hsame hw h =>
    ⟨hP _ _ _ _ hinv hlater hsame hw h.1, hF _ _ _ _ hinv hlater hsame hw h.2⟩

theorem stable_genuine (request : ServiceRequest) (r : Refund) :
    Stable (discipline C Sv) held fun _ w => Genuine C Sv w request r :=
  fun _ _ _ _ _ _ _ hw h => h.mono hw

/-- The order was selected, and its row is locked. -/
def Selected (held : List Lock) (id : Bytes32) (row : Order) (t : Tables) (_ : Outside) : Prop :=
  t.Has row ∧ row.orderId = id ∧ .order id ∈ held

theorem stable_selected (held locks : List Lock) (id : Bytes32) (row : Order) :
    Stable (discipline C Sv) locks (Selected held id row) :=
  fun _ _ _ _ _ hlater _ _ h => ⟨Later.has hlater h.1, h.2⟩

/-! ### Outcomes -/

/-- The process has ended: with a result of this kind it has committed one change of this kind,
with an error none, unless the answer of `COMMIT` was lost. -/
def Ended (C : Chain) (Sv : Services) (lost : Prop) (i : ι) (n : List (Committed ι Tables))
    (good : Result → Prop) (change : Tables → Tables → Prop) (bad : ApiError → Prop) :
    Except ApiError Result → Worlds ι → Prop
  | .ok o, d => good o ∧ ∃ t t', Out (discipline C Sv) i (n ++ [⟨i, t, t', true⟩]) d ∧ change t t'
  | .error e, d => bad e ∧ (Out (discipline C Sv) i n d ∨
      lost ∧ ∃ t t', Out (discipline C Sv) i (n ++ [⟨i, t, t', false⟩]) d ∧ change t t')

variable {good : Result → Prop} {change : Tables → Tables → Prop} {bad : ApiError → Prop}

/-- `COMMIT`, and the result. -/
theorem wp_commit_return {o : Result} (h : In (discipline C Sv) i tx P n d)
    (hopen : tx.failed = false) (hP : Stable (discipline C Sv) tx.held P)
    (hkept : ∀ t w, Holds C Sv t w → P t w →
      Kept C Sv tx.held t w (tx.write t) ∧ change t (tx.write t))
    (hgood : good o) (hbad : ∀ e, fault e → bad e) :
    (do
      commit
      return o : Exec Result).wp (obligations C Sv lost i) (Ended C Sv lost i n good change bad) d := by
  rw [Prog.wp_bind]
  refine wp_commit h hopen hP (fun t w hinv hPt => (hkept t w hinv hPt).1)
    (fun t w d' hinv hPt hout => ?_) (fun hlost e t w d' he hinv hPt hout => ?_)
    fun e d' he hout => ⟨hbad e he, Or.inl hout⟩
  · exact Prog.wp_pure.2 ⟨hgood, t, _, hout, (hkept t w hinv hPt).2⟩
  · exact ⟨hbad e he, Or.inr ⟨hlost, t, _, hout, (hkept t w hinv hPt).2⟩⟩

/-- A call of the chain client in a transaction. -/
theorem wp_call {o : ChainCall} {G : ChainAnswer o → Tables → Outside → Prop}
    {Φ : Except ApiError (ChainAnswer o) → Worlds ι → Prop} (h : In (discipline C Sv) i tx P n d)
    (hP : Stable (discipline C Sv) tx.held P) (hGs : ∀ a, Stable (discipline C Sv) tx.held (G a))
    (hG : ∀ a t (w : Outside), P t (w.after o (.ok a)) → C.Answers w.final o a →
      G a t (w.after o (.ok a)))
    (hok : ∀ a d', In (discipline C Sv) i tx (fun t w => P t w ∧ G a t w) n d' →
      Stable (discipline C Sv) tx.held (fun t w => P t w ∧ G a t w) → Φ (.ok a) d')
    (herror : ∀ e d', Out (discipline C Sv) i n d' → Φ (.error e) d') :
    (call o).wp (obligations C Sv lost i) Φ d := by
  refine wp_outside h hP (fun w r w' hout => hout.later)
    (fun a d' _ h => hok a d' (h.mono ?_) (stable_and hP (hGs a)))
    fun e _ _ d' _ hout => herror e d' hout
  rintro t w - ⟨hPt, w₀, rfl, ⟨a', ha, hanswer⟩ | ⟨e, he⟩⟩
  · cases ha
    exact ⟨hPt, hG a t w₀ hPt hanswer⟩
  · cases he

/-- An error before `COMMIT`. -/
theorem ended_error {e : ApiError} (hbad : bad e) (h : Out (discipline C Sv) i n d) :
    Ended C Sv lost i n good change bad (.error e) d :=
  ⟨hbad, Or.inl h⟩

/-! ### The chain -/

/-- A receipt of a final block with the hash of the chain is the one of the chain. -/
theorem receipt_of_canonical {hash : Bytes32} {receipt : Receipt}
    (h : C.receipt hash = some receipt ∨
      receipt.blockHash ≠ some (C.blockHash receipt.blockNumber))
    (hcanonical : receipt.blockHash = some (C.blockHash receipt.blockNumber)) :
    C.receipt hash = some receipt :=
  h.resolve_right fun hne => hne hcanonical

/-- A call of the chain client outside a transaction. -/
theorem wp_call_out {o : ChainCall} {Φ : Except ApiError (ChainAnswer o) → Worlds ι → Prop}
    (h : Out (discipline C Sv) i n d) (hΦ : ∀ r d', Out (discipline C Sv) i n d' → Φ r d') :
    (call o).wp (obligations C Sv lost i) Φ d :=
  wp_outside_out h (fun _ _ _ hout => hout.later) hΦ

theorem wp_getFinalizedReceipt {hash : Bytes32} {Φ : Except ApiError Receipt → Worlds ι → Prop}
    (h : Out (discipline C Sv) i n d) (hΦ : ∀ r d', Out (discipline C Sv) i n d' → Φ r d') :
    (getFinalizedReceipt hash).wp (obligations C Sv lost i) Φ d := by
  unfold getFinalizedReceipt
  refine Prog.wp_bind.2 (wp_call_out h fun r d h => ?_)
  cases r with
  | error e => exact hΦ _ d h
  | ok chainId =>
  refine Prog.wp_ite (fun _ => Prog.wp_throw.2 (hΦ _ d h)) fun _ => ?_
  refine Prog.wp_bind.2 (wp_call_out h fun r d h => ?_)
  cases r with
  | error e => exact hΦ _ d h
  | ok receipt =>
  refine Prog.wp_bind.2 (wp_call_out h fun r d h => ?_)
  cases r with
  | error e => exact hΦ _ d h
  | ok finalized =>
  exact Prog.wp_ite (fun _ => Prog.wp_throw.2 (hΦ _ d h)) fun _ => Prog.wp_pure.2 (hΦ _ d h)

/-- What `verifyRefundTransfer` has checked. -/
theorem verifyRefundTransfer_ok {receipt : Receipt} {hash : Bytes32} {logIndex amount m : ℕ}
    {seller : JsString} {payer : Address}
    (h : verifyRefundTransfer Sv receipt hash logIndex seller payer amount = .ok m) :
    receipt.status = js "success" ∧ receipt.transactionHash.toLowerCase = hash.text ∧
      ∃ log ∈ receipt.logs, log.logIndex = some logIndex ∧ log.address.toLowerCase = token ∧
        ∃ sender recipient, Sv.decodeTransfer log.topics log.data = some (sender, recipient, amount) ∧
          sender.toLowerCase = seller.toLowerCase ∧
            recipient.toLowerCase = payer.text.toLowerCase := by
  unfold verifyRefundTransfer invalidRefund ApiError.fail at h
  split at h
  · cases h
  · rename_i hreceipt
    obtain ⟨hstatus, hhash⟩ := not_or.1 hreceipt
    cases hlog : receipt.logs.find? fun l =>
        decide (l.logIndex = some logIndex) && decide (l.address.toLowerCase = token) with
    | none =>
      rw [hlog] at h
      cases h
    | some log =>
      rw [hlog] at h
      simp only at h
      have hfound := List.find?_some hlog
      simp only [Bool.and_eq_true, decide_eq_true_eq] at hfound
      cases hdecode : Sv.decodeTransfer log.topics log.data with
      | none =>
        rw [hdecode] at h
        cases h
      | some transfer =>
        obtain ⟨sender, recipient, value⟩ := transfer
        rw [hdecode] at h
        simp only at h
        split at h
        · cases h
        · rename_i hparties
          simp only [not_or, not_not] at hparties
          obtain ⟨hsender, hrecipient, rfl⟩ := hparties
          exact ⟨not_not.1 hstatus, not_not.1 hhash, log, List.mem_of_find?_eq_some hlog, hfound.1,
            hfound.2, sender, recipient, hdecode, hsender, hrecipient⟩

theorem wp_deploymentChainId {Φ : Except ApiError ℕ → Worlds ι → Prop} (h : ∀ r, Φ r d) :
    (deploymentChainId Sv).wp (obligations C Sv lost i) Φ d := by
  unfold deploymentChainId
  cases Sv.deploymentChainId with
  | none => exact Prog.wp_throw.2 (h _)
  | some m => exact Prog.wp_pure.2 (h _)

/-- What is known of a refund after the reads of the chain. -/
theorem wp_verifyTransfer (id : Bytes32) {row : Order} {request : ServiceRequest} {hash : Bytes32}
    {logIndex amount : ℕ} {Φ : Except ApiError ℕ → Worlds ι → Prop}
    (h : In (discipline C Sv) i tx P n d) (hP : Stable (discipline C Sv) tx.held P)
    (hok : ∀ m d', In (discipline C Sv) i tx (fun t w => P t w ∧ Genuine C Sv w request
      ⟨hash, logIndex, id, row.seller.toLowerCase, request.payer, amount⟩) n d' → Φ (.ok m) d')
    (herror : ∀ e d', Out (discipline C Sv) i n d' → Φ (.error e) d') :
    (verifyTransfer Sv row request hash logIndex amount).wp (obligations C Sv lost i) Φ d := by
  unfold verifyTransfer
  rw [Prog.wp_bind]
  refine wp_call (G := fun _ _ _ => True) h hP (fun _ => stable_const _) (fun _ _ _ _ _ => trivial)
    (fun chainId d h hP => ?_) herror
  show Prog.wp _ _ _ _
  rw [Prog.wp_bind]
  refine wp_call (G := fun (receipt : Receipt) _ _ => C.receipt hash = some receipt ∨
    receipt.blockHash ≠ some (C.blockHash receipt.blockNumber)) h hP (fun _ => stable_const _)
    (fun a t w _ ha => ha.1) (fun receipt d h hP => ?_) herror
  show Prog.wp _ _ _ _
  rw [Prog.wp_bind]
  refine wp_call (G := fun m _ w => m ≤ w.final) h hP (fun m => stable_le m)
    (fun a t w _ ha => ha) (fun finalized d h hP => ?_) herror
  show Prog.wp _ _ _ _
  rw [Prog.wp_bind]
  -- The receipt of the payment is recorded.
  refine wp_call (G := fun (paid : Receipt) _ w => ∃ x ∈ w.readings,
    x.hash = request.transactionHash ∧ x.receipt = paid) h hP (fun a => ?_)
    (fun a t w _ _ => ?_) (fun paid d h hP => ?_) herror
  · rintro t t' w w' - - - hw ⟨x, hx, hof⟩
    exact ⟨x, Outside.Later.readings hw hx, hof⟩
  · exact ⟨_, List.mem_append_right _ (List.mem_singleton_self _), rfl, rfl⟩
  show Prog.wp _ _ _ _
  rw [Prog.wp_bind]
  refine wp_deploymentChainId fun r => ?_
  cases r with
  | error e => exact herror e _ h.out
  | ok expected =>
    show Prog.wp _ _ _ _
    refine Prog.wp_ite (fun _ => Prog.wp_throw.2 (herror _ _ h.out)) fun hchecks => ?_
    simp only [not_or, not_lt, not_and, not_le] at hchecks
    obtain ⟨-, hfinal, horder, hindex⟩ := hchecks
    rw [Prog.wp_bind]
    refine wp_call (G := fun hash _ _ => hash = C.blockHash receipt.blockNumber) h hP
      (fun _ => stable_const _) (fun a t w hPt ha => ha (hfinal.trans hPt.1.2))
      (fun canonical d h _ => ?_) herror
    show Prog.wp _ _ _ _
    refine Prog.wp_ite (fun _ => Prog.wp_throw.2 (herror _ d h.out)) fun hcanonical => ?_
    rw [Prog.wp_ofExcept]
    cases hverify : verifyRefundTransfer Sv receipt hash logIndex row.seller.toLowerCase
        request.payer amount with
    | error e => exact herror e d h.out
    | ok m =>
      refine hok m d (h.mono ?_)
      rintro t w - ⟨⟨⟨⟨⟨hPt, -⟩, hreceipt⟩, hle⟩, x, hx, hof, rfl⟩, rfl⟩
      obtain ⟨hstatus, hhash, log, hlog, hlogIndex, haddress, sender, recipient, hdecode, hsender,
        hrecipient⟩ := verifyRefundTransfer_ok hverify
      refine ⟨hPt, rfl, receipt, x, log, sender, recipient,
        receipt_of_canonical hreceipt (not_not.1 hcanonical), hfinal.trans hle, hstatus, hhash,
        ⟨hx, hof⟩, ?_, hlog, hlogIndex, haddress, hdecode, hsender, hrecipient⟩
      rcases horder.lt_or_eq with hlt | heq
      · exact Or.inl hlt
      · exact Or.inr ⟨heq, hindex heq.symm⟩

/-! ### The branches -/

variable {user : User} {id : Bytes32} {row : Order} {request : ServiceRequest}

/-- No condition on results, changes and errors. -/
abbrev Ends (C : Chain) (Sv : Services) (lost : Prop) (i : ι) (n : List (Committed ι Tables)) :=
  Ended C Sv lost i n (fun _ => True) (fun _ _ => True) fun _ => True

theorem dispute_wp {reason : JsString}
    (h : In (discipline C Sv) i ⟨held, fun t => t, false⟩ (Selected held id row) n d) :
    (dispute user id row reason).wp (obligations C Sv lost i)
      (Ends C Sv lost i n) d := by
  unfold dispute record
  refine Prog.wp_ite (fun _ => Prog.wp_throw.2 (ended_error trivial h.out)) fun _ => ?_
  rw [Prog.wp_bind]
  refine wp_statement h (stable_selected _ _ _ _) (fun a write locks d _ h => ?_)
    fun e d _ hout => ⟨trivial, Or.inl hout⟩
  -- The row is inserted unless there is one, and the lock of its key keeps that so.
  have h := h.mono (F := fun t _ => .dispute id ∈ held ++ locks ∧
    (write = (fun t => t) ∨ id ∉ t.disputes.map (·.orderId) ∧
      write = fun t => { t with disputes := t.disputes ++ [⟨id, user.id, reason⟩] })) ?_
  · refine wp_commit_return h rfl ?_ ?_ trivial fun _ _ => trivial
    · rintro t t' w w' - - hsame - ⟨hlock, hwrite⟩
      refine ⟨hlock, hwrite.imp_right fun ⟨hnew, hwrite⟩ => ⟨fun hmem => hnew ?_, hwrite⟩⟩
      exact (show _ ↔ _ from hsame (.dispute id) hlock).1 hmem
    · rintro t w hinv ⟨hlock, rfl | ⟨hnew, rfl⟩⟩
      · exact ⟨Kept.refl hinv, trivial⟩
      · exact ⟨kept_insertDispute hinv hnew hlock, trivial⟩
  · rintro t w hinv ⟨-, hrun, rfl⟩
    refine ⟨List.mem_append_right _ List.mem_cons_self, ?_⟩
    simp only [schema] at hrun
    split at hrun
    · cases hrun
      exact Or.inl rfl
    · rename_i hnone
      cases hrun
      refine Or.inr ⟨fun hmem => hnone ?_, rfl⟩
      obtain ⟨x, hx, hid⟩ := List.mem_map.1 hmem
      exact List.any_eq_true.2 ⟨x, hx, decide_eq_true hid⟩

/-- What is known of a new refund before it is inserted. -/
structure Refundable (C : Chain) (Sv : Services) (held : List Lock) (row : Order)
    (request : ServiceRequest) (r : Refund) (total : ℕ) (t : Tables) (w : Outside) : Prop where
  selected : Selected held r.orderId row t w
  index : r.logIndex ≤ int4Max
  genuine : Genuine C Sv w request r
  total : total = t.refunded r.orderId

theorem stable_refundable {r : Refund} {total : ℕ} (locks : List Lock) :
    Stable (discipline C Sv) (held ++ locks) (Refundable C Sv held row request r total) := by
  rintro t t' w w' - hlater hsame hw ⟨hselected, hindex, hgenuine, htotal⟩
  refine ⟨⟨Later.has hlater hselected.1, hselected.2⟩, hindex, hgenuine.mono hw, ?_⟩
  have hrefunds : t'.refundsOf r.orderId = t.refundsOf r.orderId :=
    hsame _ (List.mem_append_left _ hselected.2.2)
  rw [htotal, Tables.refunded, Tables.refunded, hrefunds]

theorem insertRefund_wp {r : Refund} {total : ℕ} {locks : List Lock}
    (h : In (discipline C Sv) i ⟨held ++ locks, fun t => t, false⟩
      (Refundable C Sv held row request r total) n d) (hrequest : row.Requests Sv request)
    (hseller : r.seller = row.seller.toLowerCase)
    (hsum : total + r.amountAtomic ≤ request.amountAtomic) :
    (do
      query (.insertRefund r)
      record r.orderId "refund" : Exec Result).wp (obligations C Sv lost i) (Ends C Sv lost i n)
        d := by
  unfold record
  rw [Prog.wp_bind]
  refine wp_statement h (stable_refundable locks) (fun a write locks' d _ h => ?_)
    fun e d _ hout => ⟨trivial, Or.inl hout⟩
  -- The lock of the key keeps that no other row has it.
  have h := h.mono (F := fun t w => Refundable C Sv held row request r total t w ∧
    .refund r.key ∈ held ++ locks ++ locks' ∧ r.key ∉ t.refunds.map Refund.key ∧
      write = fun t => { t with refunds := t.refunds ++ [r] }) ?_
  · refine wp_commit_return h rfl ?_ ?_ trivial fun _ _ => trivial
    · rintro t t' w w' hinv hlater hsame hw ⟨hknown, hlock, hnew, hwrite⟩
      refine ⟨stable_refundable locks t t' w w' hinv hlater
        (fun k hk => hsame k (List.mem_append_left _ hk)) hw hknown, hlock, fun hmem => hnew ?_,
        hwrite⟩
      exact (show _ ↔ _ from hsame (.refund r.key) hlock).1 hmem
    · rintro t w hinv ⟨⟨⟨hrow, hid, horder⟩, hindex, hgenuine, rfl⟩, hlock, hnew, rfl⟩
      refine ⟨kept_insertRefund hinv hrow hid.symm hrequest hnew hindex hseller hgenuine
        (hid ▸ hsum) ?_ hlock, trivial⟩
      exact hid ▸ List.mem_append_left _ (List.mem_append_left _ horder)
  · rintro t w hinv ⟨hknown, hrun, rfl⟩
    refine ⟨hknown, List.mem_append_right _ List.mem_cons_self, ?_⟩
    simp only [schema] at hrun
    split at hrun
    · cases hrun
    · rename_i hnone
      cases hrun
      refine ⟨fun hmem => hnone ?_, rfl⟩
      obtain ⟨x, hx, hkey⟩ := List.mem_map.1 hmem
      exact List.any_eq_true.2 ⟨x, hx, decide_eq_true hkey⟩

theorem newRefund_wp {hash : Bytes32} {logIndex amount : ℕ} {locks : List Lock}
    (h : In (discipline C Sv) i ⟨held ++ locks, fun t => t, false⟩
      (fun t w => Selected held id row t w ∧ logIndex ≤ int4Max) n d)
    (hrequest : row.Requests Sv request) :
    (newRefund Sv id row request hash logIndex amount).wp (obligations C Sv lost i)
      (Ends C Sv lost i n) d := by
  unfold newRefund
  rw [Prog.wp_bind]
  refine wp_verifyTransfer id h (stable_and (stable_selected _ _ _ _) (stable_const _))
    (fun m d h => ?_) fun e d hout => ⟨trivial, Or.inl hout⟩
  show Prog.wp _ _ _ _
  rw [Prog.wp_bind]
  refine wp_read (f := fun t => t.refunded id) h
    (stable_and (stable_and (stable_selected _ _ _ _) (stable_const _)) (stable_genuine _ _))
    (fun t a write hrun => ?_) (fun total locks' d _ h => ?_) fun e d _ hout => ⟨trivial, Or.inl hout⟩
  · cases hrun
    exact ⟨rfl, rfl⟩
  show Prog.wp _ _ _ _
  refine Prog.wp_ite (fun _ => Prog.wp_throw.2 (ended_error trivial h.out)) fun hsum => ?_
  have h := h.mono (F := Refundable C Sv held row request
    ⟨hash, logIndex, id, row.seller.toLowerCase, request.payer, amount⟩ total) ?_
  · rw [List.append_assoc] at h
    exact insertRefund_wp h hrequest rfl (not_lt.1 hsum)
  · rintro t w - ⟨⟨⟨hselected, hindex⟩, hgenuine⟩, htotal, -⟩
    exact ⟨hselected, hindex, hgenuine, htotal⟩

theorem refund_wp {hash : Bytes32} {logIndex amount : ℕ}
    (h : In (discipline C Sv) i ⟨held, fun t => t, false⟩ (Selected held id row) n d)
    (hrequest : row.Requests Sv request) :
    (refund Sv user id row request hash logIndex amount).wp (obligations C Sv lost i)
      (Ends C Sv lost i n) d := by
  unfold refund
  refine Prog.wp_ite (fun _ => Prog.wp_throw.2 (ended_error trivial h.out)) fun _ => ?_
  rw [Prog.wp_bind]
  refine wp_statement h (stable_selected _ _ _ _) (fun a write locks d _ h => ?_)
    fun e d _ hout => ⟨trivial, Or.inl hout⟩
  replace h : In (discipline C Sv) i ⟨held ++ locks, fun t => t, false⟩
      (fun t w => Selected held id row t w ∧ logIndex ≤ int4Max) n d := by
    refine h.read ?_
    rintro t w ⟨hselected, hrun, -⟩
    simp only [schema] at hrun
    split at hrun
    · cases hrun
    · cases hrun
      exact ⟨rfl, hselected, not_lt.1 ‹_›⟩
  show Prog.wp _ _ _ _
  cases a with
  | none => exact newRefund_wp h hrequest
  | some existing =>
    refine Prog.wp_ite (fun _ => Prog.wp_throw.2 (ended_error trivial h.out)) fun _ => ?_
    exact wp_commit_return h rfl (stable_and (stable_selected _ _ _ _) (stable_const _))
      (fun t w hinv _ => ⟨Kept.refl hinv, trivial⟩) trivial fun _ _ => trivial

theorem insertReview_wp {review : Review} {locks : List Lock}
    (h : In (discipline C Sv) i ⟨locks, fun t => t, false⟩ (fun _ _ => True) n d) :
    (insertReview id review).wp (obligations C Sv lost i) (Ends C Sv lost i n) d := by
  unfold insertReview record
  rw [Prog.wp_bind]
  refine wp_read (f := fun t => t.reviews.find? fun r => r.key = (id, review.reviewer)) h
    (stable_const _) (fun t a write hrun => ?_) (fun existing more d _ h => ?_)
    fun e d _ hout => ⟨trivial, Or.inl hout⟩
  · cases hrun
    exact ⟨rfl, rfl⟩
  replace h := h.mono (F := fun _ _ => True) fun _ _ _ _ => trivial
  show Prog.wp _ _ _ _
  cases existing with
  | some existing =>
    refine Prog.wp_ite (fun _ => Prog.wp_throw.2 (ended_error trivial h.out)) fun _ => ?_
    exact wp_commit_return h rfl (stable_const _) (fun t w hinv _ => ⟨Kept.refl hinv, trivial⟩)
      trivial fun _ _ => trivial
  | none =>
    show Prog.wp _ _ _ _
    rw [Prog.wp_bind]
    refine wp_statement h (stable_const _) (fun a write locks' d _ h => ?_)
      fun e d _ hout => ⟨trivial, Or.inl hout⟩
    have h := h.mono (F := fun t _ => .review review.key ∈ locks ++ more ++ locks' ∧
      review.key ∉ t.reviews.map Review.key ∧
        write = fun t => { t with reviews := t.reviews ++ [review] }) ?_
    · refine wp_commit_return h rfl ?_ ?_ trivial fun _ _ => trivial
      · rintro t t' w w' - - hsame - ⟨hlock, hnew, hwrite⟩
        refine ⟨hlock, fun hmem => hnew ?_, hwrite⟩
        exact (show _ ↔ _ from hsame (.review review.key) hlock).1 hmem
      · rintro t w hinv ⟨hlock, hnew, rfl⟩
        exact ⟨kept_insertReview hinv hnew hlock, trivial⟩
    · rintro t w hinv ⟨-, hrun, rfl⟩
      refine ⟨List.mem_append_right _ List.mem_cons_self, ?_⟩
      simp only [schema] at hrun
      split at hrun
      · cases hrun
      · rename_i hnone
        cases hrun
        refine ⟨fun hmem => hnone ?_, rfl⟩
        obtain ⟨x, hx, hkey⟩ := List.mem_map.1 hmem
        exact List.any_eq_true.2 ⟨x, hx, decide_eq_true hkey⟩

theorem review_wp {outputHash evidenceHash : Bytes32} {verdict : Verdict}
    {evidenceReference : JsString}
    (h : In (discipline C Sv) i ⟨held, fun t => t, false⟩ (fun _ _ => True) n d) :
    (review Sv user id row request outputHash verdict evidenceReference evidenceHash).wp
      (obligations C Sv lost i) (Ends C Sv lost i n) d := by
  have hstable : ∀ {held}, Stable (discipline C Sv) held fun _ _ => True := stable_const _
  unfold review
  refine Prog.wp_ite (fun _ => Prog.wp_throw.2 (ended_error trivial h.out)) fun _ => ?_
  rw [Prog.wp_bind]
  refine wp_call (G := fun _ _ _ => True) h hstable (fun _ => hstable) (fun _ _ _ _ _ => trivial)
    (fun chainId d h _ => ?_) fun e d hout => ⟨trivial, Or.inl hout⟩
  replace h := h.mono (F := fun _ _ => True) fun _ _ _ _ => trivial
  show Prog.wp _ _ _ _
  rw [Prog.wp_bind]
  refine wp_deploymentChainId fun r => ?_
  cases r with
  | error e => exact ⟨trivial, Or.inl h.out⟩
  | ok expected =>
    show Prog.wp _ _ _ _
    refine Prog.wp_ite (fun _ => Prog.wp_throw.2 (ended_error trivial h.out)) fun _ => ?_
    rw [Prog.wp_bind]
    refine wp_call (G := fun _ _ _ => True) h hstable (fun _ => hstable)
      (fun _ _ _ _ _ => trivial) (fun finalized d h _ => ?_)
      fun e d hout => ⟨trivial, Or.inl hout⟩
    replace h := h.mono (F := fun _ _ => True) fun _ _ _ _ => trivial
    show Prog.wp _ _ _ _
    rw [Prog.wp_bind]
    refine wp_call (G := fun _ _ _ => True) h hstable (fun _ => hstable)
      (fun _ _ _ _ _ => trivial) (fun bindings d h _ => ?_)
      fun e d hout => ⟨trivial, Or.inl hout⟩
    replace h := h.mono (F := fun _ _ => True) fun _ _ _ _ => trivial
    show Prog.wp _ _ _ _
    refine Prog.wp_ite (fun _ => Prog.wp_throw.2 (ended_error trivial h.out)) fun _ => ?_
    refine Prog.wp_ite (fun _ => Prog.wp_throw.2 (ended_error trivial h.out)) fun _ => ?_
    rw [Prog.wp_bind, check, Prog.wp_ofExcept]
    cases ApiError.lift (row.output.canonicalJsonHash Sv.host) with
    | error e => exact ⟨trivial, Or.inl h.out⟩
    | ok hash =>
      show Prog.wp _ _ _ _
      refine Prog.wp_ite (fun _ => Prog.wp_throw.2 (ended_error trivial h.out)) fun _ => ?_
      exact insertReview_wp h

/-- **One transaction.** -/
theorem transaction_wp {action : RecoveryAction}
    (h : In (discipline C Sv) i ⟨[], fun t => t, false⟩ (fun _ _ => True) n d) :
    (transaction Sv user id action).wp (obligations C Sv lost i) (Ends C Sv lost i n) d := by
  unfold transaction
  rw [Prog.wp_bind]
  refine wp_read (f := fun t => t.orders.find? fun row => row.orderId = id) h (stable_const _)
    (fun t a write hrun => ?_) (fun found locks d _ h => ?_) fun e d _ hout => ⟨trivial, Or.inl hout⟩
  · cases hrun
    exact ⟨rfl, rfl⟩
  show Prog.wp _ _ _ _
  cases found with
  | none => exact Prog.wp_throw.2 (ended_error trivial h.out)
  | some row =>
    have h := h.mono (F := Selected ([] ++ locks) id row) ?_
    · show Prog.wp _ _ _ _
      rw [Prog.wp_bind, check, Prog.wp_ofExcept]
      cases hrequest : ApiError.lift (ServiceRequest.parse Sv.host row.request) with
      | error e => exact ⟨trivial, Or.inl h.out⟩
      | ok request =>
        show Prog.wp _ _ _ _
        cases action with
        | dispute reason => exact dispute_wp h
        | refund hash logIndex amount => exact refund_wp h (ApiError.lift_ok.1 hrequest)
        | review outputHash verdict reference evidenceHash =>
          exact review_wp (h.mono fun _ _ _ _ => trivial)
    · rintro t w - ⟨-, hfound, rfl⟩
      have hmem := List.mem_of_find?_eq_some hfound.symm
      have hid : row.orderId = id := by simpa using List.find?_some hfound.symm
      exact ⟨⟨row, hmem, rfl⟩, hid, by simpa [schema] using ⟨row, hmem, hid⟩⟩

/-- What the `catch` block throws after an error, when it can roll back. -/
def rethrown (e : ApiError) : ApiError :=
  if isUniqueViolation e then
    .platform 409 (js "REFUND_REUSED") (js "Transfer has already been attributed.")
  else e

/-- The `catch` block. -/
theorem abandon_wp {e : ApiError} (hfault : ∀ e, fault e → bad e) (hbad : bad (rethrown e))
    (h : Out (discipline C Sv) i n d ∨
      lost ∧ ∃ t t', Out (discipline C Sv) i (n ++ [⟨i, t, t', false⟩]) d ∧ change t t') :
    (abandon e).wp (obligations C Sv lost i) (Ended C Sv lost i n good change bad) d := by
  have hthrow : ∀ d : Worlds ι, (Out (discipline C Sv) i n d ∨
      lost ∧ ∃ t t', Out (discipline C Sv) i (n ++ [⟨i, t, t', false⟩]) d ∧ change t t') →
      (if isUniqueViolation e then
        fail 409 "REFUND_REUSED" "Transfer has already been attributed."
      else throw e : Exec Result).wp (obligations C Sv lost i)
        (Ended C Sv lost i n good change bad) d := by
    intro d hd
    unfold rethrown at hbad
    split at hbad
    · rw [if_pos ‹_›]
      exact Prog.wp_throw.2 ⟨hbad, hd⟩
    · rw [if_neg ‹_›]
      exact Prog.wp_throw.2 ⟨hbad, hd⟩
  unfold abandon
  rw [Prog.wp_bind]
  rcases h with hout | ⟨hlost, t, t', hout, hchange⟩
  · exact wp_rollback hout (fun d hout => hthrow d (Or.inl hout))
      fun e d he hout => ⟨hfault e he, Or.inl hout⟩
  · exact wp_rollback hout (fun d hout => hthrow d (Or.inr ⟨hlost, t, t', hout, hchange⟩))
      fun e d he hout => ⟨hfault e he, Or.inr ⟨hlost, t, t', hout, hchange⟩⟩

/-- `BEGIN`, the transaction, and the `catch` block. -/
theorem attempt_wp {p : Exec Result} (hP : Stable (discipline C Sv) [] P) (hd : P d.tables d.outside)
    (h : Out (discipline C Sv) i n d) (hfault : ∀ e, fault e → bad e)
    (hbad : ∀ e, bad e → bad (rethrown e))
    (hp : ∀ d, In (discipline C Sv) i ⟨[], fun t => t, false⟩ P n d →
      p.wp (obligations C Sv lost i) (Ended C Sv lost i n good change bad) d) :
    (do
      begin
      tryCatch p abandon : Exec Result).wp (obligations C Sv lost i)
        (Ended C Sv lost i n good change bad) d := by
  rw [Prog.wp_bind]
  refine wp_begin h hP hd (fun d h => ?_) fun e d he hout => ⟨hfault e he, Or.inl hout⟩
  show Prog.wp _ _ _ _
  rw [Prog.wp_tryCatch]
  refine Prog.wp_mono (hp d h) fun r d h => ?_
  cases r with
  | ok o => exact h
  | error e => exact abandon_wp hfault (hbad e h.1) h.2

/-- **One action.** -/
theorem recoveryAction_wp {orderId : JsString} {value : Json} (h : Out (discipline C Sv) i n d) :
    (recoveryAction Sv user orderId value).wp (obligations C Sv lost i) (Ends C Sv lost i n) d := by
  unfold recoveryAction
  rw [Prog.wp_bind, check, Prog.wp_ofExcept]
  cases ApiError.lift (parseHash orderId) with
  | error e => exact ⟨trivial, Or.inl h⟩
  | ok id =>
    show Prog.wp _ _ _ _
    rw [Prog.wp_bind, check, Prog.wp_ofExcept]
    cases ApiError.lift (RecoveryAction.parse Sv.host value) with
    | error e => exact ⟨trivial, Or.inl h⟩
    | ok action =>
      show Prog.wp _ _ _ _
      exact attempt_wp (stable_const _) trivial h (fun _ _ => trivial) (fun _ _ => trivial)
        fun d h => transaction_wp h

/-- A handler that inserts an order or updates its delivery. -/
theorem putOrder_wp {order : Order} (h : Out (discipline C Sv) i n d) :
    (putOrder Sv order).wp (obligations C Sv lost i) (Ends C Sv lost i n) d := by
  unfold putOrder record
  rw [Prog.wp_bind, check, Prog.wp_ofExcept]
  cases ApiError.lift (ServiceRequest.parse Sv.host order.request) with
  | error e => exact ⟨trivial, Or.inl h⟩
  | ok request =>
  refine Prog.wp_bind.2 (wp_getFinalizedReceipt h fun r d h => ?_)
  cases r with
  | error e => exact ⟨trivial, Or.inl h⟩
  | ok receipt =>
  show Prog.wp _ _ _ _
  rw [Prog.wp_bind]
  refine wp_begin (P := fun _ _ => True) h (stable_const _) trivial (fun d h => ?_)
    fun e d _ hout => ⟨trivial, Or.inl hout⟩
  show Prog.wp _ _ _ _
  rw [Prog.wp_bind]
  refine wp_statement h (stable_const _) (fun a write locks d _ h => ?_)
    fun e d _ hout => ⟨trivial, Or.inl hout⟩
  replace h := h.mono
    (F := fun _ _ => write = fun t => { t with orders := putRow order t.orders }) ?_
  · refine wp_commit_return h rfl (stable_const _) ?_ trivial fun _ _ => trivial
    rintro t w hinv rfl
    exact ⟨kept_putOrder hinv, trivial⟩
  · rintro t w - ⟨-, hrun, -⟩
    cases hrun
    rfl

/-! ### Repeating a refund -/

end Recovery

end Obolos
