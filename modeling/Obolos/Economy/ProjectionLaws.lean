import Obolos.Economy.MeasurementMerges
import Obolos.Economy.RecoveryProjection
import Mathlib.Algebra.BigOperators.Group.List.Basic
import Mathlib.Algebra.BigOperators.Group.Finset.Piecewise
import Mathlib.Data.List.Dedup
import Mathlib.Tactic.Ring

/-!
# Laws of the reputation

The figures of a seller are sums over its orders of what is found about each order (`Finding`).  A
finding depends on the set of pairs of a controller and a verdict in the eligible reviews of the
order, and on the matched disputes and refunds; so it depends neither on their order, nor on rows
that match no order, nor on a second review of a controller (`projection_laws`).
-/

namespace Obolos

namespace Projection

open Recovery (root sameKnownController)

variable {orders : List RecoveryOrder} {evidence evidence' : RecoveryEvidence}
  {bindings : List (JsString × JsString)} {trustedReviewers : List JsString}
  {rows rows' : List Review} {refunds : List (JsString × ℤ)}

/-! ### Reviews of an order -/

/-- The known controller of a reviewer, with the verdict. -/
def vote (bindings : List (JsString × JsString)) (row : Review) : JsString × Verdict :=
  (root bindings row.reviewer, row.verdict)

/-- The number of distinct known controllers among reviewers. -/
def controllers (bindings : List (JsString × JsString)) (rows : List Review) : ℕ :=
  (rows.map fun row => root bindings row.reviewer).dedup.length

theorem same_iff (a b : Review) : sameKnownController a.reviewer b.reviewer bindings = true ↔
    root bindings a.reviewer = root bindings b.reviewer :=
  decide_eq_true_iff

/-- Each controller counts once. -/
theorem length_uniqueReviews (bindings : List (JsString × JsString)) (rows : List Review) :
    (uniqueReviews bindings rows).length = controllers bindings rows := by
  obtain ⟨hnodup, hmem⟩ := Loops.keepFirst_from (@same_iff bindings) rows []
    List.nodup_nil
  have hperm := (List.perm_ext_iff_of_nodup hnodup (List.nodup_dedup
    (rows.map fun row => root bindings row.reviewer))).2 fun k => by
      rw [hmem, List.mem_dedup]
      simp
  have hlength := hperm.length_eq
  rwa [List.length_map] at hlength

theorem length_dedup {α : Type} [DecidableEq α] {l l' : List α} (h : ∀ a, a ∈ l ↔ a ∈ l') :
    l.dedup.length = l'.dedup.length := by
  refine ((List.perm_ext_iff_of_nodup (List.nodup_dedup l) (List.nodup_dedup l')).2 ?_).length_eq
  simpa using h

theorem isConflicting_iff (hne : rows ≠ []) :
    isConflicting rows = true ↔ ∃ a ∈ rows, ∃ b ∈ rows, a.verdict ≠ b.verdict := by
  obtain ⟨first, rest, rfl⟩ := List.exists_cons_of_ne_nil hne
  have hone : ((first :: rest).map (·.verdict)).dedup.length = 1 ↔
      ∀ a ∈ first :: rest, a.verdict = first.verdict := by
    constructor
    · intro h a ha
      obtain ⟨v, hv⟩ := List.length_eq_one_iff.1 h
      have hmem : ∀ b ∈ first :: rest, b.verdict = v := by
        intro b hb
        have := List.mem_dedup.2 (List.mem_map_of_mem (f := (·.verdict)) hb)
        rw [hv] at this
        exact List.mem_singleton.1 this
      rw [hmem a ha, hmem first List.mem_cons_self]
    · intro h
      have hsingle : ∀ v, v ∈ (first :: rest).map (·.verdict) ↔ v ∈ [first.verdict] := by
        intro v
        rw [List.mem_map, List.mem_singleton]
        constructor
        · rintro ⟨a, ha, rfl⟩
          exact h a ha
        · rintro rfl
          exact ⟨first, List.mem_cons_self, rfl⟩
      rw [length_dedup hsingle]
      rfl
  rw [isConflicting, bne_iff_ne, ne_eq, hone]
  push Not
  constructor
  · rintro ⟨a, ha, hne⟩
    exact ⟨a, ha, first, List.mem_cons_self, hne⟩
  · rintro ⟨a, ha, b, hb, hne⟩
    by_cases hfirst : a.verdict = first.verdict
    · exact ⟨b, hb, fun h => hne (hfirst.trans h.symm)⟩
    · exact ⟨a, ha, hfirst⟩

/-! ### Findings -/

/-- What is found about an order. -/
structure Finding where
  disputes : ℕ
  refundCount : ℕ
  refunded : ℤ
  reviewers : ℕ
  reviewed : Bool
  conflicting : Bool
  passed : Bool

/-- What reviews say. -/
def judged (bindings : List (JsString × JsString)) (rows : List Review) : ℕ × Bool × Bool × Bool :=
  (controllers bindings rows, !rows.isEmpty, !rows.isEmpty && isConflicting rows,
    !isConflicting rows && rows.any fun row => row.verdict = .passed)

/-- The finding of the order with an identifier. -/
def finding (orders : List RecoveryOrder) (evidence : RecoveryEvidence)
    (bindings : List (JsString × JsString)) (trustedReviewers : List JsString)
    (refunds : List (JsString × ℤ)) (id : JsString) : Finding :=
  let votes := judged bindings (reviewGroup orders evidence bindings trustedReviewers id)
  { disputes := ((publicDisputes orders evidence).filter fun d => d.orderId = id).length
    refundCount := (refunds.filter fun r => r.1 = id).length
    refunded := ((refunds.filter fun r => r.1 = id).map Prod.snd).sum
    reviewers := votes.1
    reviewed := votes.2.1
    conflicting := votes.2.2.1
    passed := votes.2.2.2 }

/-- What reviews say depends on the set of votes. -/
theorem judged_congr (h : ∀ v, v ∈ rows.map (vote bindings) ↔ v ∈ rows'.map (vote bindings)) :
    judged bindings rows = judged bindings rows' := by
  have hempty : rows = [] ↔ rows' = [] := by
    rw [← List.map_eq_nil_iff (f := vote bindings), ← List.map_eq_nil_iff (l := rows')
      (f := vote bindings), List.eq_nil_iff_forall_not_mem, List.eq_nil_iff_forall_not_mem]
    exact forall_congr' fun v => not_congr (h v)
  have hfst : ∀ k, k ∈ rows.map (fun row => root bindings row.reviewer) ↔
      k ∈ rows'.map fun row => root bindings row.reviewer := by
    intro k
    have hmap : ∀ l : List Review, l.map (fun row => root bindings row.reviewer) =
        (l.map (vote bindings)).map Prod.fst := fun l => by rw [List.map_map]; rfl
    rw [hmap, hmap, List.mem_map, List.mem_map]
    exact exists_congr fun v => and_congr_left' (h v)
  have hsnd : ∀ v, v ∈ rows.map (·.verdict) ↔ v ∈ rows'.map (·.verdict) := by
    intro v
    have hmap : ∀ l : List Review, l.map (·.verdict) = (l.map (vote bindings)).map Prod.snd :=
      fun l => by rw [List.map_map]; rfl
    rw [hmap, hmap, List.mem_map, List.mem_map]
    exact exists_congr fun v => and_congr_left' (h v)
  have hcount : controllers bindings rows = controllers bindings rows' := length_dedup hfst
  have hconflict : isConflicting rows = isConflicting rows' := by
    rw [isConflicting, isConflicting, length_dedup hsnd]
  have hisEmpty : rows.isEmpty = rows'.isEmpty := by
    rw [Bool.eq_iff_iff, List.isEmpty_iff, List.isEmpty_iff, hempty]
  have hpassed : (rows.any fun row => row.verdict = .passed) =
      rows'.any fun row => row.verdict = .passed := by
    rw [Bool.eq_iff_iff]
    have hany : ∀ l : List Review, (l.any fun row => row.verdict = .passed) = true ↔
        Verdict.passed ∈ l.map (·.verdict) := by
      intro l
      simp [List.mem_map]
    rw [hany, hany, hsnd]
  rw [judged, judged, hcount, hconflict, hisEmpty, hpassed]

/-- Adding up a finding. -/
def Tally.add (t : Tally) (f : Finding) : Tally where
  verifiedReviews := t.verifiedReviews + f.reviewers
  reviewedOrders := t.reviewedOrders + if f.reviewed then 1 else 0
  passedReviewOrders := t.passedReviewOrders + if f.passed then 1 else 0
  conflictingReviewOrders := t.conflictingReviewOrders + if f.conflicting then 1 else 0
  disputeCount := t.disputeCount + f.disputes
  refundCount := t.refundCount + f.refundCount
  refundedAtomic := t.refundedAtomic + f.refunded

theorem tallyOrder_eq (t : Tally) (order : RecoveryOrder) :
    tallyOrder orders evidence bindings trustedReviewers refunds t order =
      t.add (finding orders evidence bindings trustedReviewers refunds order.orderId) := by
  rw [tallyOrder, Tally.add, finding]
  cases hgroup : reviewGroup orders evidence bindings trustedReviewers order.orderId with
  | nil => rfl
  | cons first rest =>
    have hne : first :: rest ≠ [] := List.cons_ne_nil first rest
    dsimp only [judged]
    rw [length_uniqueReviews]
    by_cases hconflict : isConflicting (first :: rest) = true
    · rw [if_pos hconflict]
      simp [hconflict]
    · rw [if_neg hconflict]
      have hsame : ∀ a ∈ first :: rest, a.verdict = first.verdict := by
        intro a ha
        by_contra hneq
        exact hconflict ((isConflicting_iff hne).2 ⟨a, ha, first, List.mem_cons_self, hneq⟩)
      have hany : ((first :: rest).any fun row => row.verdict = .passed) =
          decide (first.verdict = .passed) := by
        rw [Bool.eq_iff_iff, List.any_eq_true, decide_eq_true_iff]
        constructor
        · rintro ⟨a, ha, hpassed⟩
          rw [← hsame a ha]
          exact of_decide_eq_true hpassed
        · intro hpassed
          exact ⟨first, List.mem_cons_self, decide_eq_true hpassed⟩
      simp only [hany]
      split_ifs with hpassed <;> simp [hconflict, hpassed]

/-- The sums over some orders. -/
def tallyOf (found : JsString → Finding) (all : List RecoveryOrder) : Tally where
  verifiedReviews := (all.map fun o => (found o.orderId).reviewers).sum
  reviewedOrders := all.countP fun o => (found o.orderId).reviewed
  passedReviewOrders := all.countP fun o => (found o.orderId).passed
  conflictingReviewOrders := all.countP fun o => (found o.orderId).conflicting
  disputeCount := (all.map fun o => (found o.orderId).disputes).sum
  refundCount := (all.map fun o => (found o.orderId).refundCount).sum
  refundedAtomic := (all.map fun o => (found o.orderId).refunded).sum

theorem foldl_add (found : JsString → Finding) (all : List RecoveryOrder) (t : Tally) :
    all.foldl (fun t o => t.add (found o.orderId)) t =
      { verifiedReviews := t.verifiedReviews + (tallyOf found all).verifiedReviews
        reviewedOrders := t.reviewedOrders + (tallyOf found all).reviewedOrders
        passedReviewOrders := t.passedReviewOrders + (tallyOf found all).passedReviewOrders
        conflictingReviewOrders :=
          t.conflictingReviewOrders + (tallyOf found all).conflictingReviewOrders
        disputeCount := t.disputeCount + (tallyOf found all).disputeCount
        refundCount := t.refundCount + (tallyOf found all).refundCount
        refundedAtomic := t.refundedAtomic + (tallyOf found all).refundedAtomic } := by
  induction all generalizing t with
  | nil => simp [tallyOf]
  | cons o all ih =>
    rw [List.foldl_cons, ih]
    simp only [tallyOf, Tally.add, List.map_cons, List.sum_cons, List.countP_cons, Tally.mk.injEq]
    refine ⟨?_, ?_, ?_, ?_, ?_, ?_, ?_⟩ <;> ring

/-- The loop over the orders of a seller. -/
theorem foldl_tallyOrder (all : List RecoveryOrder) :
    all.foldl (tallyOrder orders evidence bindings trustedReviewers refunds) ⟨0, 0, 0, 0, 0, 0, 0⟩ =
      tallyOf (finding orders evidence bindings trustedReviewers refunds) all := by
  have hstep : tallyOrder orders evidence bindings trustedReviewers refunds =
      fun t o => t.add (finding orders evidence bindings trustedReviewers refunds o.orderId) := by
    funext t o
    exact tallyOrder_eq t o
  rw [hstep, foldl_add]
  simp

/-- Equal findings give equal figures. -/
theorem sellerReputation_congr {refunds' : List (JsString × ℤ)}
    (h : ∀ id, finding orders evidence' bindings trustedReviewers refunds' id =
      finding orders evidence bindings trustedReviewers refunds id) (seller : JsString) :
    sellerReputation orders evidence' bindings trustedReviewers refunds' seller =
      sellerReputation orders evidence bindings trustedReviewers refunds seller := by
  simp only [sellerReputation, foldl_tallyOrder, funext h]

/-! ### Matched rows -/

/-- The amount of a refund. -/
def amountOf (row : Refund) : ℤ := (readBigInt row.amountAtomic).getD 0

/-- The refunds that match an order. -/
def matchedRefunds (orders : List RecoveryOrder) (evidence : RecoveryEvidence) : List Refund :=
  evidence.refunds.filter fun row => isMatched orders row.toContext

/-- The amounts of the matched refunds. -/
def amounts (orders : List RecoveryOrder) (evidence : RecoveryEvidence) : List (JsString × ℤ) :=
  (matchedRefunds orders evidence).map fun row => (row.orderId, amountOf row)

/-- Every matched refund has a readable amount. -/
def Readable (orders : List RecoveryOrder) (evidence : RecoveryEvidence) : Prop :=
  ∀ row ∈ matchedRefunds orders evidence, (readBigInt row.amountAtomic).isSome = true

theorem mapM_refundAmount {amounts' : List (JsString × ℤ)} :
    (publicRefunds orders evidence).mapM refundAmount = .ok amounts' ↔
      Readable orders evidence ∧ amounts' = amounts orders evidence := by
  have hamount : ∀ (row : PublicRefund) b, refundAmount row = .ok b →
      (row.orderId, (readBigInt row.amountAtomic).getD 0) = b := by
    intro row b hb
    unfold refundAmount at hb
    cases hread : readBigInt row.amountAtomic with
    | none =>
      rw [hread] at hb
      cases hb
    | some n =>
      rw [hread] at hb
      cases hb
      rfl
  have hok : ∀ row : PublicRefund, (∃ b, refundAmount row = .ok b) ↔
      (readBigInt row.amountAtomic).isSome = true := by
    intro row
    unfold refundAmount
    cases readBigInt row.amountAtomic <;> simp
  rw [Loops.mapM_eq_ok_iff hamount]
  simp only [publicRefunds, hok, List.forall_mem_map, List.map_map]
  rfl

theorem projectRecovery_iff {r : RecoveryProjection} :
    projectRecovery orders evidence bindings trustedReviewers = .ok r ↔
      Readable orders evidence ∧ r =
        { reputation := (Measurements.unique (orders.map fun o => o.seller.toLowerCase)).map
            (sellerReputation orders evidence bindings trustedReviewers (amounts orders evidence))
          reviews := publicReviews orders evidence bindings trustedReviewers
          disputes := publicDisputes orders evidence
          refunds := publicRefunds orders evidence } := by
  simp only [projectRecovery, bind_eq_ok, pure_eq_ok, mapM_refundAmount]
  constructor
  · rintro ⟨_, ⟨hreadable, rfl⟩, rfl⟩
    exact ⟨hreadable, rfl⟩
  · rintro ⟨hreadable, rfl⟩
    exact ⟨_, ⟨hreadable, rfl⟩, rfl⟩

/-- Evidence with the same matched disputes and refunds up to their order, and the same votes for
every order. -/
structure Similar (orders : List RecoveryOrder) (bindings : List (JsString × JsString))
    (trustedReviewers : List JsString) (evidence evidence' : RecoveryEvidence) : Prop where
  votes : ∀ id v, v ∈ (reviewGroup orders evidence bindings trustedReviewers id).map (vote bindings) ↔
    v ∈ (reviewGroup orders evidence' bindings trustedReviewers id).map (vote bindings)
  disputes : (evidence.disputes.filter fun row => isMatched orders row.toContext).Perm
    (evidence'.disputes.filter fun row => isMatched orders row.toContext)
  refunds : (matchedRefunds orders evidence).Perm (matchedRefunds orders evidence')

/-- Similar evidence gives the same figures. -/
theorem Similar.reputation {r : RecoveryProjection}
    (h : Similar orders bindings trustedReviewers evidence evidence')
    (hr : projectRecovery orders evidence bindings trustedReviewers = .ok r) :
    ∃ r', projectRecovery orders evidence' bindings trustedReviewers = .ok r' ∧
      r'.reputation = r.reputation := by
  obtain ⟨hreadable, rfl⟩ := projectRecovery_iff.1 hr
  refine ⟨_, projectRecovery_iff.2 ⟨fun row hrow => hreadable row (h.refunds.mem_iff.2 hrow), rfl⟩, ?_⟩
  refine List.map_congr_left fun seller _ => sellerReputation_congr (fun id => ?_) seller
  have hamounts := (h.refunds.map fun row => (row.orderId, amountOf row)).filter
    fun r : JsString × ℤ => r.1 = id
  have hdisputes := (h.disputes.map fun row : Dispute => ({ row with } : PublicDispute)).filter
    fun d => d.orderId = id
  rw [finding, finding, judged_congr fun v => (h.votes id v).symm]
  simp only [Finding.mk.injEq, and_true]
  exact ⟨hdisputes.length_eq.symm, hamounts.length_eq.symm, (hamounts.map Prod.snd).sum_eq.symm⟩

/-! ### Sums over groups -/

/-- A sum over groups is the sum over their elements. -/
theorem sum_groups {α κ : Type} [DecidableEq κ] (key : α → κ) (value : α → ℤ) {keys : List κ}
    (hnodup : keys.Nodup) {l : List α} (hmem : ∀ a ∈ l, key a ∈ keys) :
    (keys.map fun k => ((l.filter fun a => key a = k).map value).sum).sum = (l.map value).sum := by
  induction l with
  | nil => simp
  | cons a l ih =>
    have hone : ∀ k, (((a :: l).filter fun a => key a = k).map value).sum =
        (if key a = k then value a else 0) + ((l.filter fun a => key a = k).map value).sum := by
      intro k
      rw [List.filter_cons]
      by_cases hk : key a = k <;> simp [hk]
    have hsum : (keys.map fun k => if key a = k then value a else 0).sum = value a := by
      rw [← List.sum_toFinset _ hnodup, Finset.sum_ite_eq,
        if_pos (List.mem_toFinset.2 (hmem a List.mem_cons_self))]
    simp only [hone]
    rw [List.sum_map_add, hsum, ih fun b hb => hmem b (List.mem_cons_of_mem _ hb), List.map_cons,
      List.sum_cons]

theorem byOrder_eq (hids : (orders.map (·.orderId)).Nodup) {o : RecoveryOrder} (ho : o ∈ orders) :
    byOrder orders o.orderId = some o := by
  unfold byOrder
  cases hfind : orders.reverse.find? fun x => x.orderId = o.orderId with
  | none => simpa using List.find?_eq_none.1 hfind o (List.mem_reverse.2 ho)
  | some x =>
    have hid : x.orderId = o.orderId := by simpa using List.find?_some hfind
    rw [List.inj_on_of_nodup_map hids (List.mem_reverse.1 (List.mem_of_find?_eq_some hfind)) ho hid]

/-- A record matches an order with its identifier. -/
theorem mem_of_isMatched {record : Context} (h : isMatched orders record = true) :
    record.orderId ∈ orders.map (·.orderId) := by
  unfold isMatched matchOrder byOrder at h
  obtain ⟨o, ho⟩ := Option.isSome_iff_exists.1 h
  have hfind := (Option.filter_eq_some_iff.1 ho).1
  have hid : o.orderId = record.orderId := by simpa using List.find?_some hfind
  exact List.mem_map.2 ⟨o, List.mem_reverse.1 (List.mem_of_find?_eq_some hfind), hid⟩

/-- What was refunded to all sellers is what was refunded. -/
theorem sum_refunded (hids : (orders.map (·.orderId)).Nodup) (sellers : List JsString)
    (hnodup : sellers.Nodup) (hsellers : ∀ o ∈ orders, o.seller.toLowerCase ∈ sellers) :
    ((sellers.map (sellerReputation orders evidence bindings trustedReviewers
      (amounts orders evidence))).map (·.refundedAtomic)).sum =
        ((matchedRefunds orders evidence).map amountOf).sum := by
  have hseller : ∀ seller, (sellerReputation orders evidence bindings trustedReviewers
      (amounts orders evidence) seller).refundedAtomic =
      ((orders.filter fun o => o.seller.toLowerCase = seller).map fun o =>
        (((amounts orders evidence).filter fun r => r.1 = o.orderId).map Prod.snd).sum).sum := by
    intro seller
    simp only [sellerReputation, foldl_tallyOrder]
    rfl
  rw [List.map_map]
  simp only [Function.comp_def, hseller]
  rw [sum_groups (fun o : RecoveryOrder => o.seller.toLowerCase) _ hnodup hsellers]
  have hbyId : (orders.map fun o =>
      (((amounts orders evidence).filter fun r => r.1 = o.orderId).map Prod.snd).sum) =
      (orders.map (·.orderId)).map fun id =>
        (((amounts orders evidence).filter fun r => r.1 = id).map Prod.snd).sum := by
    rw [List.map_map]
    rfl
  rw [hbyId, sum_groups Prod.fst Prod.snd hids]
  · rw [amounts, List.map_map]
    rfl
  · intro r hr
    obtain ⟨row, hrow, rfl⟩ := List.mem_map.1 hr
    exact mem_of_isMatched (List.mem_filter.1 hrow).2

/-! ### The quality score -/

/-- An order with eligible reviews, which do not conflict. -/
def Settled (rows : List Review) : Prop :=
  rows ≠ [] ∧ ∀ a ∈ rows, ∀ b ∈ rows, a.verdict = b.verdict

/-- A reviewed order is not one of a seller with itself. -/
theorem not_sameOwner (hids : (orders.map (·.orderId)).Nodup) {o : RecoveryOrder} (ho : o ∈ orders)
    (h : reviewGroup orders evidence bindings trustedReviewers o.orderId ≠ []) :
    o.sameOwner = false := by
  obtain ⟨row, hrow⟩ := List.exists_mem_of_ne_nil _ h
  obtain ⟨-, hrow⟩ := List.mem_filter.1 hrow
  simp only [Bool.and_eq_true, decide_eq_true_eq] at hrow
  obtain ⟨hid, hcounts⟩ := hrow
  unfold counts matchOrder at hcounts
  rw [hid, byOrder_eq hids ho, Option.any_eq_true] at hcounts
  obtain ⟨x, hx, heligible⟩ := hcounts
  cases (Option.filter_eq_some_iff.1 hx).1
  unfold isEligible at heligible
  simp only [Bool.and_eq_true, Bool.not_eq_true'] at heligible
  exact heligible.1.1.1.1.1.1

theorem finding_reviewed {id : JsString} :
    (finding orders evidence bindings trustedReviewers refunds id).reviewed = true ↔
      reviewGroup orders evidence bindings trustedReviewers id ≠ [] := by
  simp [finding, judged]

theorem finding_conflicting {id : JsString} :
    (finding orders evidence bindings trustedReviewers refunds id).conflicting = true ↔
      reviewGroup orders evidence bindings trustedReviewers id ≠ [] ∧
        ¬Settled (reviewGroup orders evidence bindings trustedReviewers id) := by
  by_cases hne : reviewGroup orders evidence bindings trustedReviewers id = []
  · simp [finding, judged, hne]
  · have hconflict := isConflicting_iff hne
    simp only [finding, judged, Bool.and_eq_true, Bool.not_eq_true', List.isEmpty_eq_false_iff,
      hconflict, Settled]
    push Not
    exact ⟨fun h => ⟨h.1, fun _ => h.2⟩, fun h => ⟨h.1, h.2 h.1⟩⟩

theorem finding_passed {id : JsString}
    (h : (finding orders evidence bindings trustedReviewers refunds id).passed = true) :
    (finding orders evidence bindings trustedReviewers refunds id).reviewed = true := by
  rw [finding_reviewed]
  intro hempty
  simp [finding, judged, hempty] at h

/-- The score is there exactly when every order of the seller with another party is reviewed without
conflict, and there is one; and it is at most `10000`. -/
theorem qualityScore_spec (hids : (orders.map (·.orderId)).Nodup) (seller : JsString) :
    let score := (sellerReputation orders evidence bindings trustedReviewers refunds seller).qualityScore
    let eligible := (ordersOf orders seller).filter fun o => !o.sameOwner
    (score.isSome = true ↔ eligible ≠ [] ∧ ∀ o ∈ eligible,
      Settled (reviewGroup orders evidence bindings trustedReviewers o.orderId)) ∧
      ∀ n, score = some n → 0 ≤ n ∧ n ≤ 10000 := by
  intro score eligible
  have hown : ∀ o ∈ ordersOf orders seller,
      (finding orders evidence bindings trustedReviewers refunds o.orderId).reviewed = true →
        o.sameOwner = false := by
    intro o ho hreviewed
    exact not_sameOwner hids (List.mem_of_mem_filter ho) (finding_reviewed.1 hreviewed)
  -- Only eligible orders are reviewed.
  have hreviewed : (ordersOf orders seller).countP (fun o =>
      (finding orders evidence bindings trustedReviewers refunds o.orderId).reviewed) =
      eligible.countP fun o =>
        (finding orders evidence bindings trustedReviewers refunds o.orderId).reviewed := by
    rw [List.countP_filter]
    refine List.countP_congr fun o ho => ?_
    constructor
    · intro h
      rw [Bool.and_eq_true, hown o ho h]
      exact ⟨h, rfl⟩
    · intro h
      exact (Bool.and_eq_true_iff.1 h).1
  have hpassed : (ordersOf orders seller).countP (fun o =>
      (finding orders evidence bindings trustedReviewers refunds o.orderId).passed) ≤
      eligible.length := by
    refine (List.countP_mono_left fun o _ => finding_passed).trans ?_
    rw [hreviewed]
    exact List.countP_le_length
  have hscore : score = if 0 < eligible.length ∧ (eligible.countP fun o =>
      (finding orders evidence bindings trustedReviewers refunds o.orderId).reviewed) =
        eligible.length ∧ (ordersOf orders seller).countP (fun o =>
          (finding orders evidence bindings trustedReviewers refunds o.orderId).conflicting) = 0 then
      some ((((ordersOf orders seller).countP fun o =>
        (finding orders evidence bindings trustedReviewers refunds o.orderId).passed) : ℤ) * 10000
          |>.tdiv eligible.length) else none := by
    rw [← hreviewed]
    simp only [score, eligible, sellerReputation, foldl_tallyOrder, tallyOf]
  have hguard : (0 < eligible.length ∧ (eligible.countP fun o =>
      (finding orders evidence bindings trustedReviewers refunds o.orderId).reviewed) =
        eligible.length ∧ (ordersOf orders seller).countP (fun o =>
          (finding orders evidence bindings trustedReviewers refunds o.orderId).conflicting) = 0) ↔
      eligible ≠ [] ∧ ∀ o ∈ eligible,
        Settled (reviewGroup orders evidence bindings trustedReviewers o.orderId) := by
    rw [List.length_pos_iff, List.countP_eq_length, List.countP_eq_zero]
    refine and_congr_right fun _ => ⟨fun ⟨hall, hnone⟩ o ho => ?_, fun hall => ⟨fun o ho => ?_,
      fun o ho hconflict => ?_⟩⟩
    · by_contra hnot
      exact hnone o (List.mem_of_mem_filter ho)
        (finding_conflicting.2 ⟨finding_reviewed.1 (hall o ho), hnot⟩)
    · exact finding_reviewed.2 (hall o ho).1
    · obtain ⟨hgroup, hnot⟩ := finding_conflicting.1 hconflict
      have howner := hown o ho (finding_reviewed.2 hgroup)
      exact hnot (hall o (List.mem_filter.2 ⟨ho, by rw [howner]; rfl⟩))
  rw [hscore]
  refine ⟨?_, fun n hn => ?_⟩
  · rw [← hguard]
    split_ifs with h
    · exact ⟨fun _ => h, fun _ => rfl⟩
    · exact ⟨fun hsome => absurd hsome Bool.false_ne_true, fun hg => absurd hg h⟩
  · split_ifs at hn with h
    have hlength : (0 : ℤ) < eligible.length := by exact_mod_cast h.1
    rw [← Option.some_inj.1 hn, Int.tdiv_eq_ediv_of_nonneg (by positivity)]
    refine ⟨Int.ediv_nonneg (by positivity) hlength.le, Int.ediv_le_of_le_mul hlength ?_⟩
    rw [mul_comm]
    exact mul_le_mul_of_nonneg_left (by exact_mod_cast hpassed) (by decide)

/-! ### The laws -/

/-- The evidence with other reviews. -/
def RecoveryEvidence.withReviews (evidence : RecoveryEvidence) (reviews : List Review) :
    RecoveryEvidence :=
  { evidence with reviews }

/-- What the reputation says about the evidence. -/
structure Laws (orders : List RecoveryOrder) (evidence : RecoveryEvidence)
    (bindings : List (JsString × JsString)) (trustedReviewers : List JsString)
    (reputation : List Reputation) : Prop where
  /-- The order of the rows does not matter. -/
  order : ∀ evidence' : RecoveryEvidence, evidence.reviews.Perm evidence'.reviews →
    evidence.disputes.Perm evidence'.disputes → evidence.refunds.Perm evidence'.refunds →
    ∃ r', projectRecovery orders evidence' bindings trustedReviewers = .ok r' ∧
      r'.reputation = reputation
  /-- Rows that match no order do not matter. -/
  unmatched : ∀ evidence' : RecoveryEvidence,
    (evidence.reviews.filter fun row => isMatched orders row.toContext) =
      (evidence'.reviews.filter fun row => isMatched orders row.toContext) →
    (evidence.disputes.filter fun row => isMatched orders row.toContext) =
      (evidence'.disputes.filter fun row => isMatched orders row.toContext) →
    (evidence.refunds.filter fun row => isMatched orders row.toContext) =
      (evidence'.refunds.filter fun row => isMatched orders row.toContext) →
    ∃ r', projectRecovery orders evidence' bindings trustedReviewers = .ok r' ∧
      r'.reputation = reputation
  /-- A second review of a controller with the same verdict does not matter. -/
  sameController : ∀ (front back : List Review) (row : Review), evidence.reviews = front ++ back →
    counts orders bindings trustedReviewers row = true →
    (∃ other ∈ evidence.reviews, counts orders bindings trustedReviewers other = true ∧
      other.orderId = row.orderId ∧ other.verdict = row.verdict ∧
      sameKnownController other.reviewer row.reviewer bindings = true) →
    ∃ r', projectRecovery orders (evidence.withReviews (front ++ row :: back)) bindings
      trustedReviewers = .ok r' ∧ r'.reputation = reputation
  /-- The distinct known controllers of the eligible reviewers of each order. -/
  verifiedReviews : ∀ s ∈ reputation, s.verifiedReviews = ((ordersOf orders s.seller).map fun o =>
    controllers bindings (reviewGroup orders evidence bindings trustedReviewers o.orderId)).sum
  refunded : (reputation.map (·.refundedAtomic)).sum =
    ((matchedRefunds orders evidence).map amountOf).sum
  /-- Every order with another party is reviewed without conflict, and there is one. -/
  quality_isSome : ∀ s ∈ reputation, s.qualityScore.isSome = true ↔
    (∃ o ∈ orders, o.seller.toLowerCase = s.seller ∧ o.sameOwner = false) ∧
      ∀ o ∈ orders, o.seller.toLowerCase = s.seller → o.sameOwner = false →
        Settled (reviewGroup orders evidence bindings trustedReviewers o.orderId)
  quality_range : ∀ s ∈ reputation, ∀ n, s.qualityScore = some n → 0 ≤ n ∧ n ≤ 10000

/-- Only matched reviews are eligible. -/
theorem reviewGroup_matched (id : JsString) :
    reviewGroup orders evidence bindings trustedReviewers id =
      (evidence.reviews.filter fun row => isMatched orders row.toContext).filter fun row =>
        row.orderId = id && counts orders bindings trustedReviewers row := by
  rw [List.filter_filter]
  refine List.filter_congr fun row _ => ?_
  rw [Bool.eq_iff_iff, Bool.and_eq_true, Bool.and_eq_true, Bool.and_eq_true, iff_self_and]
  rintro ⟨-, hcounts⟩
  unfold counts at hcounts
  obtain ⟨o, ho, -⟩ := (Option.any_eq_true _ _).1 hcounts
  exact Option.isSome_iff_exists.2 ⟨o, ho⟩

/-- A second vote of a controller. -/
theorem votes_second {front back : List Review} {row other : Review}
    (hreviews : evidence.reviews = front ++ back) (hother : other ∈ evidence.reviews)
    (hcounts : counts orders bindings trustedReviewers other = true)
    (hid : other.orderId = row.orderId) (hvote : vote bindings other = vote bindings row)
    (id : JsString) (v : JsString × Verdict) :
    v ∈ (reviewGroup orders evidence bindings trustedReviewers id).map (vote bindings) ↔
      v ∈ (reviewGroup orders (evidence.withReviews (front ++ row :: back)) bindings trustedReviewers
        id).map (vote bindings) := by
  simp only [List.mem_map, reviewGroup, List.mem_filter, hreviews, RecoveryEvidence.withReviews,
    List.mem_append, List.mem_cons, Bool.and_eq_true, decide_eq_true_eq]
  rw [hreviews, List.mem_append] at hother
  constructor
  · rintro ⟨x, ⟨hx, hcount⟩, hv⟩
    exact ⟨x, ⟨hx.imp_right Or.inr, hcount⟩, hv⟩
  · rintro ⟨x, ⟨hx, hxid, hcount⟩, rfl⟩
    rcases hx with hx | rfl | hx
    · exact ⟨x, ⟨Or.inl hx, hxid, hcount⟩, rfl⟩
    · exact ⟨other, ⟨hother, hid.trans hxid, hcounts⟩, hvote⟩
    · exact ⟨x, ⟨Or.inr hx, hxid, hcount⟩, rfl⟩

theorem projection_laws {r : RecoveryProjection} (hids : (orders.map (·.orderId)).Nodup)
    (h : projectRecovery orders evidence bindings trustedReviewers = .ok r) :
    Laws orders evidence bindings trustedReviewers r.reputation := by
  have hr := (projectRecovery_iff.1 h).2
  have hsellers : ∀ s ∈ r.reputation, ∃ seller, s = sellerReputation orders evidence bindings
      trustedReviewers (amounts orders evidence) seller := by
    intro s hs
    rw [hr] at hs
    obtain ⟨seller, -, rfl⟩ := List.mem_map.1 hs
    exact ⟨seller, rfl⟩
  constructor
  · intro evidence' hreviews hdisputes hrefunds
    refine Similar.reputation ⟨fun id v => ?_, hdisputes.filter _, hrefunds.filter _⟩ h
    exact ((hreviews.filter _).map _).mem_iff
  · intro evidence' hreviews hdisputes hrefunds
    refine Similar.reputation ⟨fun id v => ?_, by rw [hdisputes], by
      rw [matchedRefunds, matchedRefunds, hrefunds]⟩ h
    rw [reviewGroup_matched, reviewGroup_matched, hreviews]
  · rintro front back row hreviews - ⟨other, hother, hcounts, hid, hverdict, hsame⟩
    have hvote : vote bindings other = vote bindings row :=
      Prod.ext ((same_iff other row).1 hsame) hverdict
    exact Similar.reputation
      ⟨votes_second hreviews hother hcounts hid hvote, .refl _, .refl _⟩ h
  · intro s hs
    obtain ⟨seller, rfl⟩ := hsellers s hs
    simp only [sellerReputation, foldl_tallyOrder]
    rfl
  · obtain ⟨hnodup, hmem⟩ := Measurements.unique_spec (orders.map fun o => o.seller.toLowerCase)
    rw [hr]
    exact sum_refunded hids _ hnodup fun o ho => (hmem _).2 (List.mem_map_of_mem ho)
  · intro s hs
    obtain ⟨seller, rfl⟩ := hsellers s hs
    rw [(qualityScore_spec hids seller).1, ne_eq, List.filter_eq_nil_iff]
    simp only [ordersOf, List.mem_filter, decide_eq_true_eq, Bool.not_eq_true', and_imp, not_forall,
      exists_prop, sellerReputation, and_assoc, Bool.not_eq_false, Bool.not_eq_true]
  · intro s hs n hn
    obtain ⟨seller, rfl⟩ := hsellers s hs
    exact (qualityScore_spec hids seller).2 n hn

namespace Sample

/-- A delivered order of two parties. -/
def order : RecoveryOrder where
  orderId := js "1"
  seller := js "0xA"
  payer := js "0xB"
  owner := js "0xB"
  transactionHash := js "2"
  outputHash := some (js "3")
  delivered := true
  buyerAcknowledged := true
  sameOwner := false

/-- The order, as the tables have it. -/
def context : Context where
  orderId := js "1"
  ownerAddress := js "0xb"
  payer := js "0xb"
  seller := js "0xa"
  paymentTransactionHash := js "2"
  deliveredOutputHash := some (js "3")

/-- A review of the order that passed. -/
def review (reviewer : JsString) : Review :=
  { context with
    reviewer
    outputHash := js "3"
    verdict := .passed
    evidenceReference := js "reference"
    evidenceHash := js "4"
    createdAt := js "today" }

/-- The reviews of two third parties, and a refund. -/
def recorded : RecoveryEvidence where
  reviews := [review (js "0xc"), review (js "0xe")]
  disputes := []
  refunds := [{ context with
    chainId := 1
    transactionHash := js "5"
    logIndex := 0
    amountAtomic := js "7"
    createdAt := js "today" }]

/-- Two addresses with one controller. -/
def linked : List (JsString × JsString) := [(js "0xd", js "0xc")]

/-- The trusted reviewers. -/
def trusted : List JsString := [js "0xC", js "0xD", js "0xE"]

theorem review_eq (reviewer other : JsString) :
    (review other).orderId = (review reviewer).orderId ∧
      (review other).verdict = (review reviewer).verdict :=
  ⟨rfl, rfl⟩

theorem counts_review : counts [order] linked trusted (review (js "0xc")) = true ∧
    counts [order] linked trusted (review (js "0xd")) = true ∧
    sameKnownController (js "0xc") (js "0xd") linked = true := by
  decide +kernel

theorem two_controllers :
    controllers linked (reviewGroup [order] recorded linked trusted order.orderId) = 2 := by
  decide +kernel

end Sample

/-- The laws of an order with two reviewers.  A review by a second address of one of them changes
nothing. -/
theorem projection_laws_reviewers : ∃ r,
    projectRecovery [Sample.order] Sample.recorded Sample.linked Sample.trusted = .ok r ∧
      Laws [Sample.order] Sample.recorded Sample.linked Sample.trusted r.reputation ∧
      controllers Sample.linked (reviewGroup [Sample.order] Sample.recorded Sample.linked
        Sample.trusted Sample.order.orderId) = 2 ∧
      ∃ r', projectRecovery [Sample.order]
        (Sample.recorded.withReviews (Sample.recorded.reviews ++ [Sample.review (js "0xd")]))
        Sample.linked Sample.trusted = .ok r' ∧ r'.reputation = r.reputation := by
  have hr : projectRecovery [Sample.order] Sample.recorded Sample.linked Sample.trusted = .ok _ :=
    projectRecovery_iff.2 ⟨by unfold Readable; decide +kernel, rfl⟩
  have hlaws := projection_laws (by decide) hr
  obtain ⟨hfirst, hsecond, hsame⟩ := Sample.counts_review
  obtain ⟨hid, hverdict⟩ := Sample.review_eq (js "0xd") (js "0xc")
  exact ⟨_, hr, hlaws, Sample.two_controllers, hlaws.sameController _ [] _ (List.append_nil _).symm
    hsecond ⟨_, List.mem_cons_self, hfirst, hid, hverdict, hsame⟩⟩

end Projection

end Obolos
