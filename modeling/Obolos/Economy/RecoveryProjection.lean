import Obolos.Economy.Measurements
import Obolos.Economy.Ownership

/-!
# Reputation from recovery evidence

`economy/recovery-projection.ts`: the reviews, disputes and refunds of the recovery tables are matched
with the orders of a projection, and summed up by seller.  A review counts if its reviewer is trusted
and independent of the parties; reviewers with the same known controller count once.

A `Map` from orders to rows is the function that filters the rows, and `reviewTrust()` and the reading
of the tables are left out.
-/

namespace Obolos

namespace Projection

open Recovery (root sameKnownController)

/-- `Context` -/
structure Context where
  orderId : JsString
  ownerAddress : JsString
  payer : JsString
  seller : JsString
  paymentTransactionHash : JsString
  deliveredOutputHash : Option JsString

/-- The verdict of a review. -/
inductive Verdict
  | passed
  | failed
  deriving DecidableEq

/-- `Review` -/
structure Review extends Context where
  reviewer : JsString
  outputHash : JsString
  verdict : Verdict
  evidenceReference : JsString
  evidenceHash : JsString
  createdAt : JsString

/-- `Dispute` -/
structure Dispute extends Context where
  createdAt : JsString

/-- `Refund` -/
structure Refund extends Context where
  chainId : ℤ
  transactionHash : JsString
  logIndex : ℤ
  amountAtomic : JsString
  createdAt : JsString

/-- `RecoveryEvidence` -/
structure RecoveryEvidence where
  reviews : List Review
  disputes : List Dispute
  refunds : List Refund

/-- `RecoveryOrder` -/
structure RecoveryOrder where
  orderId : JsString
  seller : JsString
  payer : JsString
  owner : JsString
  transactionHash : JsString
  outputHash : Option JsString
  delivered : Bool
  buyerAcknowledged : Bool
  sameOwner : Bool

/-- A review, as it is published. -/
structure PublicReview where
  orderId : JsString
  reviewer : JsString
  outputHash : JsString
  verdict : Verdict
  evidenceReference : JsString
  evidenceHash : JsString
  createdAt : JsString
  countsTowardReview : Bool

/-- A dispute, as it is published. -/
structure PublicDispute where
  orderId : JsString
  createdAt : JsString

/-- A refund, as it is published. -/
structure PublicRefund where
  orderId : JsString
  chainId : ℤ
  transactionHash : JsString
  logIndex : ℤ
  amountAtomic : JsString
  createdAt : JsString

/-- The figures of a seller. -/
structure Reputation where
  seller : JsString
  verifiedReviews : ℕ
  reviewedOrders : ℕ
  reviewEligibleOrders : ℕ
  passedReviewOrders : ℕ
  conflictingReviewOrders : ℕ
  qualityScore : Option ℤ
  disputeCount : ℕ
  refundCount : ℕ
  refundedAtomic : ℤ

/-- The result of `projectRecovery`. -/
structure RecoveryProjection where
  reputation : List Reputation
  reviews : List PublicReview
  disputes : List PublicDispute
  refunds : List PublicRefund

/-! ### Matching -/

/-- `byOrder.get(id)`: the last order with this identifier. -/
def byOrder (orders : List RecoveryOrder) (id : JsString) : Option RecoveryOrder :=
  orders.reverse.find? fun o => o.orderId = id

/-- `matches(record)` -/
def matchOrder (orders : List RecoveryOrder) (record : Context) : Option RecoveryOrder :=
  (byOrder orders record.orderId).filter fun o =>
    o.transactionHash = record.paymentTransactionHash &&
      o.payer.toLowerCase = record.payer.toLowerCase &&
      o.seller.toLowerCase = record.seller.toLowerCase

/-- The record matches an order. -/
def isMatched (orders : List RecoveryOrder) (record : Context) : Bool :=
  (matchOrder orders record).isSome

/-- `eligible`, of a review that matches the order. -/
def isEligible (bindings : List (JsString × JsString)) (trustedReviewers : List JsString)
    (row : Review) (o : RecoveryOrder) : Bool :=
  !o.sameOwner && o.delivered && o.buyerAcknowledged && o.outputHash = some row.outputHash &&
    o.outputHash = row.deliveredOutputHash &&
    (trustedReviewers.map JsString.toLowerCase).contains row.reviewer.toLowerCase &&
    !([o.seller, o.payer, o.owner, row.ownerAddress].any fun p =>
      sameKnownController p row.reviewer bindings)

section Project

variable (orders : List RecoveryOrder) (evidence : RecoveryEvidence)
  (bindings : List (JsString × JsString)) (trustedReviewers : List JsString)

/-- The review matches an order, and is eligible for it. -/
def counts (row : Review) : Bool :=
  (matchOrder orders row.toContext).any (isEligible bindings trustedReviewers row)

/-- `reviewGroups.get(id)??[]` -/
def reviewGroup (id : JsString) : List Review :=
  evidence.reviews.filter fun row => row.orderId = id && counts orders bindings trustedReviewers row

/-- `reviews` -/
def publicReviews : List PublicReview :=
  (evidence.reviews.filter fun row => isMatched orders row.toContext).map fun row =>
    { row with countsTowardReview := counts orders bindings trustedReviewers row }

/-- `disputes` -/
def publicDisputes : List PublicDispute :=
  (evidence.disputes.filter fun row => isMatched orders row.toContext).map fun row => { row with }

/-- `refunds` -/
def publicRefunds : List PublicRefund :=
  (evidence.refunds.filter fun row => isMatched orders row.toContext).map fun row => { row with }

/-- The order and the amount of a refund; a text that is no number is a `SyntaxError`. -/
def refundAmount (row : PublicRefund) : Except JsError (JsString × ℤ) :=
  match readBigInt row.amountAtomic with
  | some n => .ok (row.orderId, n)
  | none => .error .other

/-- `unique`: a row stays if no row before it has the same controller. -/
def uniqueReviews (rows : List Review) : List Review :=
  rows.foldl (fun unique row =>
    if unique.any fun other => sameKnownController other.reviewer row.reviewer bindings then unique
    else unique ++ [row]) []

/-- The counters of the loop over the orders of a seller. -/
structure Tally where
  verifiedReviews : ℕ
  reviewedOrders : ℕ
  passedReviewOrders : ℕ
  conflictingReviewOrders : ℕ
  disputeCount : ℕ
  refundCount : ℕ
  refundedAtomic : ℤ

/-- `new Set(rows.map(r=>r.verdict)).size!==1` -/
def isConflicting (rows : List Review) : Bool := (rows.map (·.verdict)).dedup.length != 1

/-- One order of a seller; `refunds` are the matched refunds. -/
def tallyOrder (refunds : List (JsString × ℤ)) (t : Tally) (order : RecoveryOrder) : Tally :=
  let orderRefunds := refunds.filter fun r => r.1 = order.orderId
  let t := { t with
    disputeCount := t.disputeCount +
      ((publicDisputes orders evidence).filter fun d => d.orderId = order.orderId).length
    refundCount := t.refundCount + orderRefunds.length
    refundedAtomic := t.refundedAtomic + (orderRefunds.map Prod.snd).sum }
  match reviewGroup orders evidence bindings trustedReviewers order.orderId with
  | [] => t
  | first :: rest =>
    let rows := first :: rest
    let t := { t with
      verifiedReviews := t.verifiedReviews + (uniqueReviews bindings rows).length
      reviewedOrders := t.reviewedOrders + 1 }
    if isConflicting rows then
      { t with conflictingReviewOrders := t.conflictingReviewOrders + 1 }
    else if first.verdict = .passed then
      { t with passedReviewOrders := t.passedReviewOrders + 1 }
    else t

/-- The orders of a seller. -/
def ordersOf (seller : JsString) : List RecoveryOrder :=
  orders.filter fun o => o.seller.toLowerCase = seller

/-- The figures of a seller. -/
def sellerReputation (refunds : List (JsString × ℤ)) (seller : JsString) : Reputation :=
  let all := ordersOf orders seller
  let eligible := all.filter fun o => !o.sameOwner
  let t := all.foldl (tallyOrder orders evidence bindings trustedReviewers refunds)
    ⟨0, 0, 0, 0, 0, 0, 0⟩
  { seller
    verifiedReviews := t.verifiedReviews
    reviewedOrders := t.reviewedOrders
    reviewEligibleOrders := eligible.length
    passedReviewOrders := t.passedReviewOrders
    conflictingReviewOrders := t.conflictingReviewOrders
    qualityScore :=
      if 0 < eligible.length ∧ t.reviewedOrders = eligible.length ∧ t.conflictingReviewOrders = 0 then
        some (((t.passedReviewOrders : ℤ) * 10000).tdiv eligible.length)
      else none
    disputeCount := t.disputeCount
    refundCount := t.refundCount
    refundedAtomic := t.refundedAtomic }

/-- `projectRecovery(orders,evidence,bindings,trustedReviewers)` -/
def projectRecovery : Except JsError RecoveryProjection := do
  let refunds ← (publicRefunds orders evidence).mapM refundAmount
  let sellers := Measurements.unique (orders.map fun o => o.seller.toLowerCase)
  return {
    reputation := sellers.map (sellerReputation orders evidence bindings trustedReviewers refunds)
    reviews := publicReviews orders evidence bindings trustedReviewers
    disputes := publicDisputes orders evidence
    refunds := publicRefunds orders evidence }

end Project

end Projection

end Obolos
