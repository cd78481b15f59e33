import Obolos.Economy.Session

/-!
# The executor keeps its promises

One specification for every part of `runEconomyExecutor` over the Circle-backed dependencies.
After each part the process still is in the middle of its order, in the phase of the state it
holds in memory; when a part throws, nothing more is done, so nothing more is to be known.

`wp_session` : every invocation, from journals that satisfy the invariant, makes only the changes
of `Journal.Guar`.
-/

namespace Obolos

namespace Executor

variable {H : Host} {config : Circle.CircleConfig} {deployment : Deployment}
  {captured intent : ExecutorInput} {state : ExecutorState} {kind : ExecutorAction} {A : Bytes32}
  {phase : Phase} {j : Journal}

/-! ### The dependencies that submit -/

/-- `approve`, `pay` and `abort` are remarked when they are reached. -/
theorem wp_reached (h : Session A phase j) (hphase : phase.isPaid = false) :
    (perform (.remark (.reached A kind))).wp purchases.spec
      (Prog.post (Session A phase) fun _ j' => j' = j.record (.reached A kind)) j := by
  refine wp_remark h (fun _ he => by cases he) fun B k he hpaid => ?_
  cases he
  rw [h.inPhase, hphase] at hpaid
  cases hpaid

theorem wp_approve (h : Session A .approving j) (hA : state.intent.orderId = A)
    (hreserved : ∃ r, j.reservation = some r) :
    (approve H config deployment state).wp purchases.spec
      (Prog.post (Session A .approving) fun _ _ => True) j := by
  subst hA
  unfold approve
  refine Prog.wp_seq (wp_reached h rfl) (fun _ => id) ?_
  rintro - j' h rfl
  refine Prog.wp_seq (silent_ofExcept.wp h.inv h) (fun _ => id) ?_
  rintro order j' - rfl
  refine Prog.wp_seq (wp_approveCircleUsdc (k := .approve) h (fun hk => by cases hk)
    fun _ => hreserved) (fun _ => id) fun op j' h _ => ?_
  refine Prog.wp_seq (wp_kept h (wp_circleReceipt h.inv)) (fun _ => id) fun _ j' h _ => ?_
  exact wp_return h trivial

theorem wp_pay (h : Session A .paying j) (hA : state.intent.orderId = A) :
    (pay H config deployment state).wp purchases.spec
      (Prog.post (Session A .paying) fun _ _ => True) j := by
  subst hA
  unfold pay
  refine Prog.wp_seq (wp_reached h rfl) (fun _ => id) ?_
  rintro - j' h rfl
  refine Prog.wp_seq (silent_ofExcept.wp h.inv h) (fun _ => id) ?_
  rintro order j' - rfl
  refine Prog.wp_seq (P := fun _ _ => True) ?_ (fun _ => id) fun op j' h _ =>
    wp_kept h (wp_circleReceipt h.inv)
  unfold Circle.settleCircleOrder
  refine Prog.wp_seq (silent_ofExcept.wp h.inv h) (fun _ => id) ?_
  rintro parameters j' - rfl
  exact wp_executeCircle (k := .pay) h (fun _ => rfl) fun hk => by cases hk

theorem wp_abort (h : Session A .aborting j) (hA : state.intent.orderId = A) :
    (abort H config deployment captured state).wp purchases.spec
      (Prog.post (Session A .aborting) fun _ _ => True) j := by
  subst hA
  unfold abort
  refine Prog.wp_seq (wp_reached h rfl) (fun _ => id) ?_
  rintro - j' h rfl
  refine Prog.wp_seq (wp_kept h (wp_prepareAbort h.inv)) (fun _ => id) fun _ j' h _ => ?_
  refine Prog.wp_seq (wp_approveCircleUsdc (k := .abort) h (fun hk => by cases hk)
    fun hk => by cases hk) (fun _ => id) fun op j' h _ => ?_
  exact wp_kept h (wp_circleReceipt h.inv)

theorem wp_acknowledge (h : Session A phase j) (hA : state.intent.orderId = A) :
    (acknowledge H config deployment state).wp purchases.spec
      (Prog.post (Session A phase) fun _ _ => True) j := by
  subst hA
  unfold acknowledge
  split
  · exact Prog.wp_throw.2 h
  · refine Prog.wp_seq (wp_executeCircle (k := .ack) h (fun hk => by cases hk)
      fun hk => by cases hk) (fun _ => id) fun op j' h _ => ?_
    refine Prog.wp_seq (wp_kept h (wp_circleReceipt h.inv)) (fun _ => id) fun _ j' h _ => ?_
    refine Prog.wp_seq (wp_silent (fun _ _ _ h => h) h.inv h) (fun _ => id) ?_
    rintro - j' - rfl
    exact Prog.wp_ite (fun _ => wp_fail_bind h) fun _ => wp_return h trivial

/-! ### The journal of the order -/

/-- The process works on the order in the phase of this state, which is the state of the order. -/
def Working (A : Bytes32) (state : ExecutorState) (j : Journal) : Prop :=
  Session A state.phase j ∧ state.intent.orderId = A

/-- Saving the next state of the order. -/
theorem wp_persist (h : Session A phase j) (hA : intent.orderId = A)
    (hstate : state.intent.orderId = A)
    (haborting : phase.isAborting = true → state.phase.isAborting = true)
    (hpaid : phase.isPaid = true → state.phase.isPaid = true)
    (hpay : state.phase.isAborting = true → j.operations (nameOf A .pay) = none) :
    (persist intent state).wp purchases.spec (Prog.post (fun _ => True)
      fun _ j' => j' = j.setState A state ∧ Session A state.phase j') j := by
  subst hA
  have hg := h.inv.guar_setState hstate (fun hp => haborting (h.inPhase.1 hp))
    (fun hp => hpaid (h.inPhase.1 hp)) hpay
  refine wp_write h.inv (fun _ _ => write_cases) hg trivial trivial fun _ => ⟨rfl, hg.1, ?_, h.mine⟩
  exact ⟨state, by simp [Journal.setState], rfl⟩

/-- Removing the reservation of an order that is not open. -/
theorem wp_release (h : Session A phase j) (hopen : ¬ Open A j.history) :
    release.wp purchases.spec (Prog.post (fun _ => True) fun _ => Session A phase) j := by
  have hnone : ∀ B, Open B j.history → ∃ r, (none : Option Reservation) = some r ∧ r.orderId = B :=
    fun B hB => absurd (h.only hB ▸ hB) hopen
  have hg := h.inv.guar_setReservation hnone
  have h' : Session A phase (j.setReservation none) := ⟨hg.1, h.stored, fun r hr => by cases hr⟩
  refine Prog.wp_seq (I := fun _ => True) (P := fun _ => Session A phase)
    (wp_write h.inv (fun _ _ => write_cases) hg trivial trivial fun _ => h') (fun _ => id) ?_
  intro _ j' _ h'
  refine Prog.wp_post_mono (wp_silent (fun _ _ _ h => h) h'.inv trivial) (fun _ => id) ?_
  rintro - j'' - rfl
  exact h'

theorem sameHash_silent {a b : Json} : Silent (sameHash H a b) :=
  silent_ofExcept.bind fun _ => silent_ofExcept.bind fun _ => silent_return

/-! ### Aborting -/

theorem wp_startAbort (h : Session A phase j) (hA : intent.orderId = A)
    (hstate : state.intent.orderId = A) (hphase : phase.isPaid = false) :
    (startAbort (liveExecutorDependencies H config deployment captured) intent state).wp
      purchases.spec (Prog.post (fun _ => True)
        fun next j' => next.phase = .aborting ∧ Working A next j') j := by
  unfold startAbort
  refine Prog.wp_seq (wp_prepareAbort h.inv) (fun _ _ => trivial) fun required j' hk hpay => ?_
  have h' := h.kept hk
  refine Prog.wp_seq (wp_persist h' hA hstate (fun _ => rfl) (fun hp => ?_) fun _ => ?_)
    (fun _ => id) fun _ j'' _ hp => wp_return trivial ⟨rfl, hp.2, hstate⟩
  · rw [hphase] at hp
    cases hp
  · rw [← hstate]
    exact hpay

theorem wp_revoke (h : Session A .aborting j) (hstate : state.intent.orderId = A)
    (hphase : state.phase = .aborting) :
    (revoke (liveExecutorDependencies H config deployment captured) state).wp purchases.spec
      (Prog.post (fun _ => True)
        fun next j' => next.phase = .aborting ∧ Working A next j') j := by
  have hworking : ∀ {next : ExecutorState} {j'}, Session A .aborting j' →
      next.phase = .aborting → next.intent.orderId = A →
        next.phase = .aborting ∧ Working A next j' := fun h hp hA => ⟨hp, by rwa [hp], hA⟩
  unfold revoke
  refine Prog.wp_ite (fun _ => ?_) fun _ => wp_return trivial (hworking h hphase hstate)
  refine Prog.wp_seq (I := Session A .aborting) (P := fun _ _ => True) ?_ (fun _ _ => trivial)
    fun hash j' h' _ => wp_return trivial (hworking h' hphase hstate)
  unfold revocation
  refine Prog.wp_seq (wp_hasOperation h.inv) (by rintro _ rfl; exact h) ?_
  rintro b j rfl -
  exact Prog.wp_ite (fun _ => wp_kept h (wp_recover h.inv)) fun _ => wp_abort h hstate

theorem wp_abortOrder (h : Working A state j) (hA : intent.orderId = A) :
    (abortOrder (liveExecutorDependencies H config deployment captured) intent state).wp
      purchases.spec (Prog.post (fun _ => True) fun _ _ => True) j := by
  obtain ⟨h, hstate⟩ := h
  unfold abortOrder
  refine Prog.wp_ite (fun _ => wp_fail_bind trivial) fun hunpaid => ?_
  have hphase : state.phase.isPaid = false := by
    revert hunpaid
    cases state.phase <;> decide
  refine Prog.wp_seq (I := fun _ => True)
    (P := fun next j' => next.phase = .aborting ∧ Working A next j') ?_ (fun _ => id) ?_
  · refine Prog.wp_ite (fun _ => wp_startAbort h hA hstate hphase) fun hp => ?_
    exact wp_return trivial ⟨not_not.1 hp, h, hstate⟩
  rintro state j - ⟨hp, h, hstate⟩
  rw [hp] at h
  refine Prog.wp_seq (wp_revoke h hstate hp) (fun _ => id) ?_
  rintro state j - ⟨hp, h, hstate⟩
  rw [hp] at h
  refine Prog.wp_seq (wp_verifyAborted h hstate) (fun _ _ => trivial) fun _ j h hopen => ?_
  refine Prog.wp_seq (wp_persist h hA hstate (fun _ => rfl) (fun hp => by cases hp)
    fun _ => h.inv.unpaid A (h.inPhase.2 rfl)) (fun _ => id) ?_
  rintro - j' - ⟨rfl, h'⟩
  exact Prog.wp_seq (wp_release h' hopen) (fun _ => id) fun _ _ _ _ => wp_return trivial trivial

/-! ### Paying -/

/-- A step back from a phase whose operation was never journalled, or forward to a phase before
the payment. -/
theorem wp_persist_unpaid {n : ExecutorState} (h : Session A phase j)
    (hA : intent.orderId = A) (hnext : n.intent.orderId = A)
    (haborting : phase.isAborting = false) (hpaid : phase.isPaid = false)
    (hphase : n.phase.isAborting = false) :
    (persist intent n).wp purchases.spec (Prog.post (fun _ => True)
      fun _ j' => j' = j.setState A n ∧ Session A n.phase j') j := by
  refine wp_persist h hA hnext (fun hp => ?_) (fun hp => ?_) fun hp => ?_
  · rw [haborting] at hp
    cases hp
  · rw [hpaid] at hp
    cases hp
  · rw [hphase] at hp
    cases hp

/-- Without a journal of its approval the order goes back to `prepared`, and the reservation is
removed. -/
theorem wp_undoApproval {n : ExecutorState} (h : Session A .approving j)
    (hA : intent.orderId = A) (hnext : n.intent.orderId = A) (hphase : n.phase = .prepared)
    (hnone : j.operations (nameOf A .approve) = none) :
    (persist intent n >>= fun _ => release).wp purchases.spec
      (Prog.post (fun _ => True) fun _ => Session A .prepared) j := by
  refine Prog.wp_seq (wp_persist_unpaid h hA hnext rfl rfl (by rw [hphase]; rfl)) (fun _ => id) ?_
  rintro - j' - ⟨rfl, h'⟩
  rw [hphase] at h'
  exact wp_release h' (h.inv.not_open hnone)

theorem wp_rewindApproval (h : Working A state j) (hA : intent.orderId = A) :
    (rewindApproval (liveExecutorDependencies H config deployment captured) intent state).wp
      purchases.spec (Prog.post (fun _ => True) fun next j' =>
        Working A next j' ∧ next.phase.isAborting = state.phase.isAborting) j := by
  have hstate := h.2
  unfold rewindApproval
  refine Prog.wp_ite (fun hphase => ?_) fun _ => wp_return trivial ⟨h, rfl⟩
  have hs := h.1
  rw [hphase] at hs
  refine Prog.wp_seq (wp_hasOperation hs.inv) (fun _ _ => trivial) ?_
  rintro b j rfl hb
  refine Prog.wp_ite (fun _ => wp_return trivial ⟨h, rfl⟩) fun hfalse => ?_
  have hnone : j.operations (nameOf A .approve) = none := by
    rw [hb, ExecutorState.operationName, hstate] at hfalse
    simpa using hfalse
  have hundo := wp_undoApproval (n := { state with phase := .prepared }) hs hA hstate rfl hnone
  rw [Prog.wp_bind] at hundo
  rw [Prog.wp_bind]
  refine Prog.wp_mono hundo fun r j' hr => ?_
  cases r with
  | error e => trivial
  | ok _ =>
    refine Prog.wp_seq hr (fun _ => id) fun _ j'' _ h'' => ?_
    exact wp_return trivial ⟨⟨h'', hstate⟩, by rw [hphase]; rfl⟩

theorem wp_rewindPayment (h : Working A state j) (hA : intent.orderId = A) :
    (rewindPayment (liveExecutorDependencies H config deployment captured) intent state).wp
      purchases.spec (Prog.post (fun _ => True) fun next j' =>
        Working A next j' ∧ next.phase.isAborting = state.phase.isAborting) j := by
  have hstate := h.2
  unfold rewindPayment
  refine Prog.wp_ite (fun hphase => ?_) fun _ => wp_return trivial ⟨h, rfl⟩
  have hs := h.1
  rw [hphase] at hs
  refine Prog.wp_seq (wp_hasOperation hs.inv) (fun _ _ => trivial) ?_
  rintro b j rfl -
  refine Prog.wp_ite (fun _ => wp_return trivial ⟨h, rfl⟩) fun _ => ?_
  refine Prog.wp_seq (wp_persist_unpaid hs hA hstate rfl rfl rfl) (fun _ => id) ?_
  rintro - j' - ⟨-, h'⟩
  exact wp_return trivial ⟨⟨h', hstate⟩, by rw [hphase]; rfl⟩

/-- A failed approval: whatever is undone, the error is thrown again. -/
theorem wp_approvalFailed {e : JsError} {P : Unit → Journal → Prop} (h : Session A .approving j)
    (hA : intent.orderId = A) (hstate : state.intent.orderId = A) :
    (approvalFailed (liveExecutorDependencies H config deployment captured) intent state e).wp
      purchases.spec (Prog.post (fun _ => True) P) j := by
  unfold approvalFailed
  refine Prog.wp_seq (wp_hasOperation h.inv) (fun _ _ => trivial) ?_
  rintro b j rfl hb
  refine Prog.wp_ite (fun hfalse => ?_) fun _ => Prog.wp_throw.2 trivial
  have hnone : j.operations (nameOf A .approve) = none := by
    rw [hb, ExecutorState.operationName, hstate] at hfalse
    simpa using hfalse
  have hundo := wp_undoApproval (n := { state with phase := .prepared }) h hA hstate rfl hnone
  rw [Prog.wp_bind] at hundo
  rw [Prog.wp_bind]
  refine Prog.wp_mono hundo fun r j' hr => ?_
  cases r with
  | error e => trivial
  | ok _ => exact Prog.wp_seq hr (fun _ => id) fun _ _ _ _ => Prog.wp_throw.2 trivial

theorem wp_paymentFailed {e : JsError} {P : Bytes32 → Journal → Prop} (h : Session A .paying j)
    (hA : intent.orderId = A) (hstate : state.intent.orderId = A) :
    (paymentFailed (liveExecutorDependencies H config deployment captured) intent state e).wp
      purchases.spec (Prog.post (fun _ => True) P) j := by
  unfold paymentFailed
  refine Prog.wp_seq (wp_hasOperation h.inv) (fun _ _ => trivial) ?_
  rintro b j rfl -
  refine Prog.wp_ite (fun _ => ?_) fun _ => Prog.wp_throw.2 trivial
  exact Prog.wp_seq (wp_persist_unpaid (n := { state with phase := .approved }) h hA hstate
    rfl rfl rfl) (fun _ => id) fun _ _ _ _ => Prog.wp_throw.2 trivial

/-- The approval is submitted while the order holds the reservation. -/
theorem wp_approveOrder (h : Working A state j) (hA : intent.orderId = A)
    (hphase : state.phase = .prepared) :
    (approveOrder (liveExecutorDependencies H config deployment captured) intent state).wp
      purchases.spec (Prog.post (fun _ => True) fun next j' =>
        next.phase = .approved ∧ Working A next j') j := by
  obtain ⟨h, hstate⟩ := h
  rw [hphase] at h
  unfold approveOrder
  refine Prog.wp_seq (wp_silent (fun _ _ _ h => h) h.inv trivial) (fun _ => id) ?_
  rintro - j - rfl
  have hg : j.Guar (j.setReservation (some ⟨intent.orderId, intent.payer⟩)) :=
    h.inv.guar_setReservation fun B hB => ⟨_, rfl, by rw [h.only hB]; exact hA⟩
  have hreserved : Session A .prepared (j.setReservation (some ⟨intent.orderId, intent.payer⟩)) :=
    ⟨hg.1, h.stored, fun r hr => by cases hr; exact hA⟩
  refine Prog.wp_seq (I := fun _ => True) (P := fun _ j' => j' = j.setReservation _)
    (wp_write h.inv (fun _ _ => write_cases) hg trivial trivial fun _ => rfl) (fun _ => id) ?_
  rintro - j' - rfl
  refine Prog.wp_seq (wp_persist_unpaid (n := { state with phase := .approving }) hreserved hA
    hstate rfl rfl rfl) (fun _ => id) ?_
  rintro - j' - ⟨rfl, h'⟩
  refine Prog.wp_seq (I := fun _ => True) (P := fun _ => Session A .approving)
    (Prog.wp_catch (wp_approve h' hstate ⟨_, rfl⟩) (fun _ _ h _ => ⟨trivial, h⟩)
      fun _ _ h => wp_approvalFailed h hA hstate) (fun _ => id) fun _ j' _ h' => ?_
  refine Prog.wp_seq (wp_persist_unpaid (n := { state with phase := .approved }) h' hA
    hstate rfl rfl rfl) (fun _ => id) ?_
  rintro - j' - ⟨-, h'⟩
  exact wp_return trivial ⟨rfl, h', hstate⟩

theorem wp_enterPaid {paymentHash : Bytes32} (h : Session A .paying j) (hA : intent.orderId = A)
    (hstate : state.intent.orderId = A) :
    (enterPaid H intent state paymentHash).wp purchases.spec (Prog.post (fun _ => True)
      fun next j' => next.phase = .paid ∧ Working A next j') j := by
  unfold enterPaid
  refine Prog.wp_seq (silent_ofExcept.wp h.inv trivial) (fun _ => id) ?_
  rintro request j - rfl
  refine Prog.wp_seq (wp_persist_unpaid h hA hstate rfl rfl rfl) (fun _ => id) ?_
  rintro - j' - ⟨-, h'⟩
  exact wp_return trivial ⟨rfl, h', hstate⟩

/-- The payment is submitted in the phase `paying`. -/
theorem wp_payOrder (h : Working A state j) (hA : intent.orderId = A)
    (hphase : state.phase = .approved) :
    (payOrder H (liveExecutorDependencies H config deployment captured) intent state).wp
      purchases.spec (Prog.post (fun _ => True) fun next j' =>
        next.phase = .paid ∧ Working A next j') j := by
  obtain ⟨h, hstate⟩ := h
  rw [hphase] at h
  unfold payOrder
  refine Prog.wp_seq (wp_silent (fun _ _ _ h => h) h.inv trivial) (fun _ => id) ?_
  rintro - j - rfl
  refine Prog.wp_seq (wp_silent (fun _ _ _ h => h) h.inv trivial) (fun _ => id) ?_
  rintro - j - rfl
  refine Prog.wp_seq (wp_silent (fun _ _ _ h => h) h.inv trivial) (fun _ => id) ?_
  rintro - j - rfl
  refine Prog.wp_seq (wp_persist_unpaid (n := { state with phase := .paying }) h hA hstate
    rfl rfl rfl) (fun _ => id) ?_
  rintro - j' - ⟨-, h'⟩
  refine Prog.wp_seq (I := fun _ => True) (P := fun _ => Session A .paying)
    (Prog.wp_catch (wp_pay h' hstate) (fun _ _ h _ => ⟨trivial, h⟩)
      fun _ _ h => wp_paymentFailed h hA hstate) (fun _ => id) fun _ j' _ h' => ?_
  exact wp_enterPaid h' hA hstate

theorem wp_recoverApproval (h : Session A .approving j) (hA : intent.orderId = A)
    (hstate : state.intent.orderId = A) :
    (recoverApproval (liveExecutorDependencies H config deployment captured) intent state).wp
      purchases.spec (Prog.post (fun _ => True) fun next j' =>
        next.phase = .approved ∧ Working A next j') j := by
  unfold recoverApproval
  refine Prog.wp_seq (wp_kept h (wp_recover h.inv)) (fun _ _ => trivial) fun _ j' h _ => ?_
  refine Prog.wp_seq (wp_persist_unpaid h hA hstate rfl rfl rfl) (fun _ => id) ?_
  rintro - j' - ⟨-, h'⟩
  exact wp_return trivial ⟨rfl, h', hstate⟩

/-- The phases before the payment. -/
theorem wp_obtainApproval (h : Working A state j) (hA : intent.orderId = A)
    (hphase : state.phase = .prepared ∨ state.phase = .approving ∨ state.phase = .approved) :
    (obtainApproval (liveExecutorDependencies H config deployment captured) intent state).wp
      purchases.spec (Prog.post (fun _ => True) fun next j' =>
        next.phase = .approved ∧ Working A next j') j := by
  unfold obtainApproval
  refine Prog.wp_seq (I := fun _ => True) (P := fun next j' =>
    (next.phase = .prepared ∨ next.phase = .approved) ∧ Working A next j') ?_ (fun _ => id) ?_
  · refine Prog.wp_ite (fun hp => ?_) fun hp => ?_
    · have hs := h.1
      rw [hp] at hs
      exact Prog.wp_post_mono (wp_recoverApproval hs hA h.2) (fun _ => id)
        fun _ _ _ h' => ⟨Or.inr h'.1, h'.2⟩
    · exact wp_return trivial ⟨hphase.imp_right fun h' => h'.resolve_left hp, h⟩
  · rintro state j - ⟨hphase, h⟩
    refine Prog.wp_ite (fun hp => wp_approveOrder h hA hp) fun hp => ?_
    exact wp_return trivial ⟨hphase.resolve_left hp, h⟩

theorem wp_purchase (h : Working A state j) (hA : intent.orderId = A)
    (hphase : state.phase = .prepared ∨ state.phase = .approving ∨ state.phase = .approved) :
    (purchase H (liveExecutorDependencies H config deployment captured) intent state).wp
      purchases.spec (Prog.post (fun _ => True) fun next j' =>
        next.phase = .paid ∧ Working A next j') j := by
  unfold purchase
  refine Prog.wp_seq (wp_silent (fun _ _ _ h => h) h.1.inv trivial) (fun _ => id) ?_
  rintro versions j - rfl
  refine Prog.wp_seq (sameHash_silent.wp h.1.inv trivial) (fun _ => id) ?_
  rintro same j - rfl
  refine Prog.wp_ite (fun _ => wp_fail_bind trivial) fun _ => ?_
  refine Prog.wp_seq (wp_obtainApproval h hA hphase) (fun _ => id) ?_
  rintro state j - ⟨hp, h⟩
  exact wp_payOrder h hA hp

theorem wp_obtainPayment (h : Working A state j) (hA : intent.orderId = A)
    (hphase : state.phase.isAborting = false) :
    (obtainPayment H (liveExecutorDependencies H config deployment captured) intent state).wp
      purchases.spec (Prog.post (fun _ => True) fun next j' =>
        next.phase.isPaid = true ∧ Working A next j') j := by
  have hpaid : ∀ (next : ExecutorState) j', True → next.phase = .paid ∧ Working A next j' →
      next.phase.isPaid = true ∧ Working A next j' := fun next j' _ h => ⟨by rw [h.1]; rfl, h.2⟩
  unfold obtainPayment
  split
  · rename_i hp
    exact Prog.wp_post_mono (wp_purchase h hA (Or.inl hp)) (fun _ => id) hpaid
  · rename_i hp
    exact Prog.wp_post_mono (wp_purchase h hA (Or.inr (Or.inl hp))) (fun _ => id) hpaid
  · rename_i hp
    exact Prog.wp_post_mono (wp_purchase h hA (Or.inr (Or.inr hp))) (fun _ => id) hpaid
  · rename_i hp
    have hs := h.1
    rw [hp] at hs
    unfold recoverPayment
    refine Prog.wp_seq (wp_kept hs (wp_recover hs.inv)) (fun _ _ => trivial) fun _ j' h' _ => ?_
    exact Prog.wp_post_mono (wp_enterPaid h' hA h.2) (fun _ => id) hpaid
  · refine wp_return trivial ⟨?_, h⟩
    revert hphase
    cases hp : state.phase <;> simp_all [Phase.isAborting, Phase.isPaid]

/-! ### Delivery -/

/-- A step of a paid order. -/
theorem wp_persist_paid {n : ExecutorState} (h : Session A phase j) (hA : intent.orderId = A)
    (hnext : n.intent.orderId = A) (hpaid : phase.isPaid = true)
    (hphase : n.phase.isPaid = true) :
    (persist intent n).wp purchases.spec (Prog.post (fun _ => True)
      fun _ j' => j' = j.setState A n ∧ Session A n.phase j') j := by
  have hne : ∀ p : Phase, p.isPaid = true → p.isAborting = false := by
    intro p
    cases p <;> decide
  refine wp_persist h hA hnext (fun hp => ?_) (fun _ => hphase) fun hp => ?_
  · rw [hne _ hpaid] at hp
    cases hp
  · rw [hne _ hphase] at hp
    cases hp

theorem wp_collect {request : ServiceRequest} (h : Working A state j) (hA : intent.orderId = A)
    (hpaid : state.phase.isPaid = true) :
    (collect H (liveExecutorDependencies H config deployment captured) intent state request).wp
      purchases.spec (Prog.post (fun _ => True) fun next j' =>
        next.phase.isPaid = true ∧ Working A next j') j := by
  unfold collect
  refine Prog.wp_seq (wp_silent (fun _ _ _ h => h) h.1.inv trivial) (fun _ => id) ?_
  rintro result j - rfl
  refine Prog.wp_ite (fun _ => wp_fail_bind trivial) fun _ => ?_
  refine Prog.wp_ite (fun _ => wp_fail_bind trivial) fun _ => ?_
  split
  · exact wp_fail trivial
  · refine Prog.wp_seq (silent_ofExcept.wp h.1.inv trivial) (fun _ => id) ?_
    rintro outputHash j - rfl
    refine Prog.wp_ite (fun _ => wp_fail_bind trivial) fun _ => ?_
    refine Prog.wp_seq (silent_ofExcept.wp h.1.inv trivial) (fun _ => id) ?_
    rintro - j - rfl
    refine Prog.wp_seq (wp_persist_paid h.1 hA h.2 hpaid rfl) (fun _ => id) ?_
    rintro - j' - ⟨-, h'⟩
    exact wp_return trivial ⟨rfl, h', h.2⟩

theorem wp_complete {next : ExecutorState} (h : Session A phase j) (hA : intent.orderId = A)
    (hnext : next.intent.orderId = A) (hpaid : phase.isPaid = true) :
    (complete intent next).wp purchases.spec
      (Prog.post (fun _ => True) fun _ _ => True) j :=
  Prog.wp_seq (wp_persist_paid h hA hnext hpaid rfl) (fun _ => id)
    fun _ _ _ _ => wp_return trivial trivial

theorem wp_recoverAcknowledgment (h : Session A phase j) (hA : intent.orderId = A)
    (hstate : state.intent.orderId = A) (hpaid : phase.isPaid = true) :
    (recoverAcknowledgment (liveExecutorDependencies H config deployment captured) intent
      state).wp purchases.spec (Prog.post (fun _ => True) fun _ _ => True) j := by
  unfold recoverAcknowledgment
  refine Prog.wp_seq (wp_kept h (wp_recover h.inv)) (fun _ _ => trivial) fun hash j' h _ => ?_
  refine Prog.wp_seq (wp_silent (fun _ _ _ h => h) h.inv trivial) (fun _ => id) ?_
  rintro verified j - rfl
  exact Prog.wp_ite (fun _ => wp_fail_bind trivial) fun _ => wp_complete h hA hstate hpaid

theorem wp_acknowledgeOutput (h : Session A phase j) (hA : intent.orderId = A)
    (hstate : state.intent.orderId = A) (hpaid : phase.isPaid = true) :
    (acknowledgeOutput (liveExecutorDependencies H config deployment captured) intent state).wp
      purchases.spec (Prog.post (fun _ => True) fun _ _ => True) j := by
  unfold acknowledgeOutput
  refine Prog.wp_seq (wp_persist_paid (n := { state with phase := .acknowledging }) h hA hstate
    hpaid rfl) (fun _ => id) ?_
  rintro - j' - ⟨-, h⟩
  refine Prog.wp_seq (wp_acknowledge h hstate) (fun _ _ => trivial) fun hash j' h _ => ?_
  exact wp_complete h hA hstate rfl

theorem wp_acknowledgeDelivery (h : Working A state j) (hA : intent.orderId = A)
    (hpaid : state.phase.isPaid = true) :
    (acknowledgeDelivery H (liveExecutorDependencies H config deployment captured) intent state).wp
      purchases.spec (Prog.post (fun _ => True) fun _ _ => True) j := by
  obtain ⟨h, hstate⟩ := h
  unfold acknowledgeDelivery
  refine Prog.wp_seq (silent_ofExcept.wp h.inv trivial) (fun _ => id) ?_
  rintro - j - rfl
  refine Prog.wp_seq (wp_silent (fun _ _ _ h => h) h.inv trivial) (fun _ => id) ?_
  rintro alreadyAcknowledged j - rfl
  split
  · exact Prog.wp_ite (fun _ => wp_return trivial trivial) fun _ => wp_fail trivial
  · exact wp_recoverAcknowledgment h hA hstate hpaid
  · exact Prog.wp_ite (fun _ => wp_complete h hA hstate hpaid)
      fun _ => wp_acknowledgeOutput h hA hstate hpaid

/-- After `verifyPayment` the order is not open. -/
theorem wp_verifyPayment (h : Session A phase j) (hstate : state.intent.orderId = A) :
    (perform (.verifyPayment state)).wp purchases.spec
      (Prog.post (fun _ => True) fun _ j' => Session A phase j' ∧ ¬ Open A j'.history) j := by
  subst hstate
  refine wp_perform fun r j' hwork => ?_
  cases r with
  | error e =>
    obtain rfl : j' = j := hwork
    exact ⟨h.inv.guar_refl, trivial⟩
  | ok _ =>
    obtain rfl : j' = j.record (.paymentVerified state.intent.orderId) := hwork
    have hg := h.inv.guar_record (e := .paymentVerified state.intent.orderId)
      (fun _ he => by cases he) fun _ _ he => by cases he
    refine ⟨hg, trivial, h.of_guar hg rfl rfl, fun hopen => ?_⟩
    rcases open_append.1 hopen with ⟨-, hne, -⟩ | he
    · exact hne rfl
    · cases he

theorem wp_finish {reservation : Option Reservation} (h : Working A state j)
    (hA : intent.orderId = A) (hpaid : state.phase.isPaid = true) :
    (finish H (liveExecutorDependencies H config deployment captured) intent reservation state).wp
      purchases.spec (Prog.post (fun _ => True) fun _ _ => True) j := by
  obtain ⟨h, hstate⟩ := h
  unfold finish
  refine Prog.wp_seq (silent_ofExcept.wp h.inv trivial) (fun _ => id) ?_
  rintro request j - rfl
  refine Prog.wp_seq (wp_verifyPayment h hstate) (fun _ => id) ?_
  rintro - j - ⟨h, hopen⟩
  refine Prog.wp_seq (I := fun _ => True) (P := fun _ => Session A state.phase)
    (Prog.wp_ite (fun _ => wp_release h hopen) fun _ => wp_return trivial h) (fun _ => id)
    fun _ j _ h => ?_
  refine Prog.wp_seq (I := fun _ => True)
    (P := fun next j' => next.phase.isPaid = true ∧ Working A next j')
    (Prog.wp_ite (fun _ => wp_collect ⟨h, hstate⟩ hA hpaid)
      fun _ => wp_return trivial ⟨hpaid, h, hstate⟩) (fun _ => id) ?_
  rintro state j - ⟨hpaid, h⟩
  exact wp_acknowledgeDelivery h hA hpaid

/-! ### The whole -/

theorem wp_advance {reservation : Option Reservation} (h : Working A state j)
    (hA : intent.orderId = A) (hphase : state.phase.isAborting = false) :
    (advance H (liveExecutorDependencies H config deployment captured) intent reservation state).wp
      purchases.spec (Prog.post (fun _ => True) fun _ _ => True) j := by
  unfold advance
  refine Prog.wp_seq (wp_rewindApproval h hA) (fun _ => id) ?_
  rintro state j - ⟨h, hp⟩
  rw [← hp] at hphase
  refine Prog.wp_seq (wp_rewindPayment h hA) (fun _ => id) ?_
  rintro state j - ⟨h, hp⟩
  rw [← hp] at hphase
  refine Prog.wp_seq (wp_obtainPayment h hA hphase) (fun _ => id) ?_
  rintro state j - ⟨hpaid, h⟩
  exact wp_finish h hA hpaid

/-- Reading a file of the directory of the orders. -/
theorem wp_read {o : Effect} {P : Answer o → Journal → Prop} (hj : j.Inv)
    (ho : ∀ r j', work j o r j' → j' = j) (hP : ∀ a, work j o (.ok a) j → P a j) :
    (read (perform o)).wp purchases.spec
      (Prog.post (fun _ => True) fun a j' => j' = j ∧ P a j') j := by
  refine Prog.wp_catch (I := (· = j)) (P := P) (wp_quiet hj ho rfl hP) ?_
    fun _ _ _ => Prog.wp_throw.2 trivial
  intro a j' h hp
  exact ⟨trivial, h, hp⟩

theorem wp_loadState {intentHash : Bytes32} (hj : j.Inv) :
    (loadState H intent intentHash).wp purchases.spec (Prog.post (fun _ => True)
      fun stored j' => j' = j ∧ stored = j.states intent.orderId) j := by
  unfold loadState
  refine Prog.wp_seq (wp_read (P := fun stored _ => stored = j.states intent.orderId) hj ?_
    fun _ h => h.1) (fun _ => id) ?_
  · rintro (e | stored) j' h
    · exact h
    · exact h.2
  rintro stored j - ⟨rfl, hstored⟩
  cases stored with
  | none => exact wp_return trivial ⟨rfl, hstored⟩
  | some state =>
    refine Prog.wp_seq (silent_ofExcept.wp hj trivial) (fun _ => id) ?_
    rintro - j - rfl
    exact wp_return trivial ⟨rfl, hstored⟩

theorem wp_loadReservation (hj : j.Inv) :
    (loadReservation intent).wp purchases.spec (Prog.post (fun _ => True)
      fun _ j' => j' = j ∧ ∀ r, j.reservation = some r → r.orderId = intent.orderId) j := by
  unfold loadReservation
  refine Prog.wp_seq (wp_read (P := fun reservation _ => reservation = j.reservation) hj ?_
    fun _ h => h.1) (fun _ => id) ?_
  · rintro (e | reservation) j' h
    · exact h
    · exact h.2
  rintro reservation j - ⟨rfl, hreservation⟩
  refine Prog.wp_ite (fun _ => wp_fail_bind trivial) fun hmine => wp_return trivial ⟨rfl, ?_⟩
  intro r hr
  rw [hreservation, hr] at hmine
  simpa using hmine

theorem wp_openState {intentHash : Bytes32} {abortUnpaid : Bool} (hj : j.Inv)
    (hmine : ∀ r, j.reservation = some r → r.orderId = intent.orderId) :
    (openState (liveExecutorDependencies H config deployment captured) intent intentHash
      abortUnpaid (j.states intent.orderId)).wp purchases.spec (Prog.post (fun _ => True)
        fun state j' => Working intent.orderId state j') j := by
  unfold openState
  split
  · rename_i state hstate
    exact wp_return trivial ⟨⟨hj, ⟨state, hstate, rfl⟩, hmine⟩, hj.own _ _ hstate⟩
  · rename_i hnone
    refine Prog.wp_ite (fun _ => wp_fail_bind trivial) fun _ => ?_
    refine Prog.wp_seq (wp_silent (fun _ _ _ h => h) hj trivial) (fun _ => id) ?_
    rintro versions j - rfl
    have habsent : ∀ p : Phase → Bool, ¬ j.InPhase intent.orderId p := by
      rintro p ⟨state, hstate, -⟩
      rw [hnone] at hstate
      cases hstate
    have hg : j.Guar (j.setState intent.orderId
        { intent, intentHash, versions, phase := .prepared }) :=
      hj.guar_setState rfl (fun h => absurd h (habsent _)) (fun h => absurd h (habsent _))
        fun h => by cases h
    refine Prog.wp_seq (I := fun _ => True) (P := fun _ j' => j' = j.setState _ _)
      (wp_write hj (fun _ _ => write_cases) hg trivial trivial fun _ => rfl) (fun _ => id) ?_
    rintro - j' - rfl
    exact wp_return trivial ⟨⟨hg.1, ⟨_, by simp [Journal.setState], rfl⟩, hmine⟩, rfl⟩

/-- **Every invocation keeps the invariant.** -/
theorem wp_session {abortUnpaid : Bool} (hj : j.Inv) :
    (session H (liveExecutorDependencies H config deployment captured) intent abortUnpaid).wp
      purchases.spec (fun _ _ => True) j := by
  suffices h : (session H (liveExecutorDependencies H config deployment captured) intent
      abortUnpaid).wp purchases.spec (Prog.post (fun _ => True) fun _ _ => True) j from
    Prog.wp_mono h fun _ _ _ => trivial
  unfold session
  refine Prog.wp_seq (silent_ofExcept.wp hj trivial) (fun _ => id) ?_
  rintro intentHash j - rfl
  refine Prog.wp_seq (wp_loadState hj) (fun _ => id) ?_
  rintro stored j - ⟨rfl, rfl⟩
  refine Prog.wp_seq (I := fun _ => True) (P := fun _ j' => j' = j)
    (Prog.wp_ite (fun _ => wp_return trivial rfl)
      fun _ => wp_silent (fun _ _ _ h => h) hj trivial) (fun _ => id) ?_
  rintro - j - rfl
  refine Prog.wp_seq (wp_loadReservation hj) (fun _ => id) ?_
  rintro reservation j - ⟨rfl, hmine⟩
  refine Prog.wp_seq (wp_openState hj hmine) (fun _ => id) fun state j _ h => ?_
  refine Prog.wp_ite (fun haborted => ?_) fun haborted => ?_
  · refine Prog.wp_seq (wp_verifyAborted h.1 h.2) (fun _ _ => trivial) fun _ j h hopen => ?_
    exact Prog.wp_seq (wp_release h hopen) (fun _ => id) fun _ _ _ _ => wp_return trivial trivial
  · refine Prog.wp_ite (fun _ => wp_abortOrder h rfl) fun hnormal => wp_advance h rfl ?_
    have haborting : state.phase ≠ .aborting := by
      rintro hp
      simp [hp] at hnormal
    revert haborted haborting
    cases state.phase <;> simp [Phase.isAborting]

end Executor

end Obolos
