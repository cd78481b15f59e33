import Obolos.Economy.OperationSteps

/-!
# In the middle of an order

A process that works on an order knows the phase that is stored for it, and that nobody else
holds the reservation (`Session`).  Every dependency of the executor keeps this knowledge,
whatever its outcome; the operations that submit something do so under the conditions of
`wp_executeCircle`.
-/

namespace Obolos

namespace Executor

variable {H : Host} {config : Circle.CircleConfig} {deployment : Deployment}
  {intent : ExecutorInput} {state : ExecutorState} {k : ExecutorAction} {A B : Bytes32}
  {phase : Phase} {j j' : Journal} {I : Journal → Prop}

/-- What the process that works on an order knows. -/
structure Session (A : Bytes32) (phase : Phase) (j : Journal) : Prop where
  inv : j.Inv
  stored : ∃ state, j.states A = some state ∧ state.phase = phase
  mine : ∀ r, j.reservation = some r → r.orderId = A

namespace Session

theorem inPhase (h : Session A phase j) {p : Phase → Bool} : j.InPhase A p ↔ p phase = true := by
  obtain ⟨state, hstate, hphase⟩ := h.stored
  constructor
  · rintro ⟨state', hstate', hp⟩
    rw [hstate] at hstate'
    cases hstate'
    rwa [← hphase]
  · intro hp
    exact ⟨state, hstate, hphase ▸ hp⟩

/-- Only the order itself can be open. -/
theorem only (h : Session A phase j) (hB : Open B j.history) : B = A := by
  obtain ⟨r, hr, rfl⟩ := h.inv.reserved B hB
  exact h.mine r hr

theorem kept (h : Session A phase j) (hk : j.Kept j') : Session A phase j' :=
  ⟨hk.inv, by rw [hk.states]; exact h.stored, by rw [hk.reservation]; exact h.mine⟩

/-- A change that leaves the states and the reservation alone. -/
theorem of_guar (h : Session A phase j) (hg : j.Guar j') (hstates : j'.states = j.states)
    (hreservation : j'.reservation = j.reservation) : Session A phase j' :=
  ⟨hg.1, by rw [hstates]; exact h.stored, by rw [hreservation]; exact h.mine⟩

end Session

/-- What leaves the journals alone or only reconciles keeps a session. -/
theorem wp_kept {α : Type} {p : Exec α} {P : α → Journal → Prop} (h : Session A phase j)
    (hp : p.wp purchases.spec (Prog.post j.Kept P) j) :
    p.wp purchases.spec (Prog.post (Session A phase) P) j :=
  Prog.wp_post_mono hp (fun _ => h.kept) fun _ _ _ => id

/-- An event that is neither a submission nor something a paid order must not reach. -/
theorem wp_remark {e : Event} (h : Session A phase j) (he : ∀ name, e ≠ .submitted name)
    (hreached : ∀ B k, e = .reached B k → ¬ j.InPhase B Phase.isPaid) :
    (perform (.remark e)).wp purchases.spec
      (Prog.post (Session A phase) fun _ j' => j' = j.record e) j := by
  have hg := h.inv.guar_record he hreached
  refine wp_perform fun r j' hwork => ?_
  obtain ⟨rfl, rfl⟩ := hwork
  exact ⟨hg, h.of_guar hg rfl rfl, rfl⟩

/-! ### Aborting -/

/-- `prepareAbort` succeeds only if there is no payment. -/
theorem wp_prepareAbort (hj : j.Inv) :
    (prepareAbort H config intent state).wp purchases.spec (Prog.post j.Kept
      fun _ j' => j'.operations (state.operationName .pay) = none) j := by
  unfold prepareAbort
  refine Prog.wp_seq (wp_hasOperation hj) (by rintro _ rfl; exact hj.kept) ?_
  rintro b j rfl hb
  refine Prog.wp_ite (fun _ => wp_fail_bind hj.kept) fun hpay => ?_
  have hnone : j.operations (state.operationName .pay) = none := by
    rw [hb] at hpay
    simpa using hpay
  have hkept : ∀ {j'}, j.Kept j' → j'.operations (state.operationName .pay) = none := by
    intro j' h
    rw [← Option.isNone_iff_eq_none, ← Option.not_isSome, h.operations, hnone]
    rfl
  refine Prog.wp_seq (wp_silent (fun _ _ _ h => h) hj hj.kept) (fun _ => id) ?_
  rintro - j - rfl
  refine Prog.wp_seq (wp_hasOperation hj) (by rintro _ rfl; exact hj.kept) ?_
  rintro b j rfl -
  refine Prog.wp_ite (fun _ => ?_) fun _ => wp_return hj.kept hnone
  refine Prog.wp_seq (wp_reconcileLocked hj) (fun _ => id) fun op j' h _ => ?_
  refine Prog.wp_seq (wp_circleReceipt h.inv) (fun _ => h.trans) fun _ j'' h' _ => ?_
  have h'' := h.trans h'
  refine Prog.wp_seq (wp_silent (fun _ _ _ h => h) h''.inv h'') (fun _ => id) ?_
  rintro allowance j - rfl
  refine Prog.wp_seq (silent_ofExcept.wp h''.inv h'') (fun _ => id) ?_
  rintro order j - rfl
  exact Prog.wp_ite (fun _ => wp_fail_bind h'') fun _ => wp_return h'' (hkept h'')

theorem silent_verifyRevoked : Silent (verifyRevoked intent state) :=
  .ite (.bind (silent_perform fun _ _ _ h => h) fun _ => .ite silent_fail silent_return)
    silent_return

/-- After `verifyAborted` the order is not open. -/
theorem wp_verifyAborted (h : Session A phase j) (hstate : state.intent.orderId = A) :
    (verifyAborted intent state).wp purchases.spec
      (Prog.post (Session A phase) fun _ j' => ¬ Open A j'.history) j := by
  unfold verifyAborted
  refine Prog.wp_seq (wp_hasOperation h.inv) (by rintro _ rfl; exact h) ?_
  rintro b j rfl -
  refine Prog.wp_ite (fun _ => wp_fail_bind h) fun _ => ?_
  refine Prog.wp_seq (wp_silent (fun _ _ _ h => h) h.inv h) (fun _ => id) ?_
  rintro - j - rfl
  refine Prog.wp_seq (silent_verifyRevoked.wp h.inv h) (fun _ => id) ?_
  rintro - j - rfl
  refine Prog.wp_post_mono (wp_remark h (fun _ he => by cases he) fun _ _ he => by cases he)
    (fun _ => id) ?_
  rintro - j' - rfl hopen
  rw [hstate] at hopen
  rcases open_append.1 hopen with ⟨-, -, hne⟩ | he
  · exact hne rfl
  · cases he

/-! ### Submitting -/

/-- The operation is journalled and may be submitted. -/
structure Ready (A : Bytes32) (phase : Phase) (k : ExecutorAction) (j : Journal) : Prop
    extends Session A phase j where
  journalled : (j.operations (nameOf A k)).isSome
  fresh : .submitted (nameOf A k) ∉ j.history
  reserved : k = .approve → ∃ r, j.reservation = some r

/-- The operation was journalled, and perhaps submitted. -/
structure Made (A : Bytes32) (phase : Phase) (k : ExecutorAction) (j : Journal) : Prop
    extends Session A phase j where
  journalled : (j.operations (nameOf A k)).isSome

/-- The submission itself. -/
theorem wp_submit {args : List JsString} {key : JsString} (h : Ready A phase k j) :
    (perform (.submit (nameOf A k) args key)).wp purchases.spec
      (Prog.post (Made A phase k) fun _ _ => True) j := by
  have hg : j.Guar (j.record (.submitted (nameOf A k))) := by
    refine h.inv.guar_submitted h.journalled h.fresh (fun B hB => ?_) fun B _ hB _ C hC => ?_
    · obtain ⟨rfl, rfl⟩ := nameOf_inj hB
      obtain ⟨r, hr⟩ := h.reserved rfl
      exact ⟨r, hr, h.mine r hr⟩
    · rw [h.only hC, (nameOf_inj hB).1]
  refine wp_perform fun r j' hwork => ?_
  obtain rfl : j' = j.record (.submitted (nameOf A k)) := hwork
  have hmade : Made A phase k (j.record (.submitted (nameOf A k))) :=
    ⟨h.of_guar hg rfl rfl, h.journalled⟩
  refine ⟨hg, ?_⟩
  cases r with
  | ok a => exact ⟨hmade, trivial⟩
  | error e => exact hmade

/-- Saving the journal of an operation of the order. -/
theorem wp_saveJournal {operation : Circle.Operation} (h : Session A phase j)
    (hpay : k = .pay → phase.isAborting = false) :
    (perform (.saveOperation (nameOf A k) operation)).wp purchases.spec
      (Prog.post (Session A phase) fun _ j' => j' = j.setOperation (nameOf A k) operation)
      j := by
  have hg : j.Guar (j.setOperation (nameOf A k) operation) := by
    refine h.inv.guar_setOperation fun B hB he => ?_
    obtain ⟨rfl, rfl⟩ := nameOf_inj he
    rw [h.inPhase, hpay rfl] at hB
    cases hB
  exact wp_write h.inv (fun _ _ => write_cases) hg h (h.of_guar hg rfl rfl) fun _ => rfl

/-- Saving the outcome of an operation that was made. -/
theorem wp_saveOutcome {operation : Circle.Operation} (h : Made A phase k j) :
    (perform (.saveOperation (nameOf A k) operation)).wp purchases.spec
      (Prog.post (Made A phase k) fun _ _ => True) j :=
  Prog.wp_post_mono (wp_saveOperation h.inv.kept h.journalled)
    (fun _ h' => ⟨h.toSession.kept h'.1, h'.2⟩) fun _ _ _ _ => trivial

/-- What follows the submission. -/
theorem wp_conclude {operation : Circle.Operation} (h : Made A phase k j)
    (hname : operation.name = nameOf A k) :
    (Circle.conclude operation).wp purchases.spec
      (Prog.post (Session A phase) fun _ _ => True) j := by
  unfold Circle.conclude
  refine Prog.wp_seq (I := Made A phase k) (P := fun _ _ => True) ?_ (fun _ h => h.toSession)
    fun confirmed j' h' _ => ?_
  · unfold Circle.saveSubmitted
    rw [hname]
    refine Prog.wp_ite (fun _ => ?_) fun _ => wp_return h trivial
    refine Prog.wp_catch (I := Made A phase k) (P := fun _ _ => True)
      (Prog.wp_seq (wp_saveOutcome h) (fun _ => id) fun _ _ h' _ => wp_return h' trivial)
      (fun _ _ h' _ => ⟨h', trivial⟩) fun _ _ h' => wp_return h' trivial
  · refine Prog.wp_ite (fun _ => wp_return h'.toSession trivial) fun _ => ?_
    rw [hname]
    exact Prog.wp_seq (wp_saveOutcome h') (fun _ h => h.toSession) fun _ _ h'' _ =>
      wp_fail h''.toSession

/-- **One submission under one name.**  Behind its journal an operation is submitted only when it
was not before. -/
theorem wp_journalAndSubmit {call : Circle.Intent} {submit : JsString → Exec Circle.Record}
    (h : Session A phase j) (hpay : k = .pay → phase.isAborting = false)
    (hreserved : k = .approve → ∃ r, j.reservation = some r)
    (hsubmit : ∀ key j', Ready A phase k j' →
      (submit key).wp purchases.spec (Prog.post (Made A phase k) fun _ _ => True) j') :
    (Circle.journalAndSubmit H (nameOf A k) call submit).wp purchases.spec
      (Prog.post (Session A phase) fun _ _ => True) j := by
  unfold Circle.journalAndSubmit
  refine Prog.wp_seq (I := (· = j)) (P := fun op _ => op = j.operations (nameOf A k))
    (wp_quiet h.inv ?_ rfl fun _ h => h.1) (by rintro _ rfl; exact h) ?_
  · rintro (e | op) j' h
    · exact h
    · exact h.2
  rintro op j rfl hop
  cases op with
  | some previous =>
    unfold Circle.resume
    refine Prog.wp_ite (fun _ => wp_fail h) fun _ => ?_
    split
    · exact wp_return h trivial
    · exact wp_fail h
    · exact wp_fail h
  | none =>
    -- nothing was journalled under this name, so nothing was submitted under it
    have hfresh : .submitted (nameOf A k) ∉ j.history := fun hmem => by
      have hsome := h.inv.journalled _ hmem
      rw [← hop] at hsome
      cases hsome
    refine Prog.wp_seq (wp_silent (fun _ _ _ h => h) h.inv h) (fun _ => id) ?_
    rintro key j - rfl
    refine Prog.wp_seq (wp_saveJournal h hpay) (fun _ => id) ?_
    rintro - j' h' rfl
    refine Prog.wp_seq (I := Made A phase k) (P := fun _ _ => True) ?_ (fun _ h => h.toSession)
      fun result j'' h'' _ => wp_conclude h'' rfl
    refine Prog.wp_catch (I := Made A phase k) (P := fun _ _ => True) ?_
      (fun _ _ h _ => ⟨h, trivial⟩) fun _ _ h => wp_return h trivial
    rw [Prog.wp_map]
    refine Prog.wp_mono (hsubmit key _ ⟨h', ?_, hfresh, hreserved⟩) fun r j'' hr => ?_
    · simp [Journal.setOperation]
    · cases r with
      | ok a => exact hr
      | error e => exact hr

/-- A Circle operation of the order. -/
theorem wp_executeCircle {contract signature : JsString} {parameters : List JsString}
    (h : Session A phase j) (hpay : k = .pay → phase.isAborting = false)
    (hreserved : k = .approve → ∃ r, j.reservation = some r) :
    (Circle.executeCircle H config (nameOf A k) contract signature parameters).wp
      purchases.spec (Prog.post (Session A phase) fun _ _ => True) j := by
  unfold Circle.executeCircle
  refine Prog.wp_ite (fun _ => wp_fail_bind h) fun _ => ?_
  refine Prog.wp_seq (silent_assertTestnet.wp h.inv h) (fun _ => id) ?_
  rintro - j - rfl
  split
  · exact Prog.wp_throw.2 h
  · unfold Circle.durableOperation
    refine wp_withOperationLock h.inv (fun _ h => h.inv) h
      (wp_journalAndSubmit h hpay hreserved fun key j' h' => ?_)
    refine Prog.wp_seq (wp_submit h') (fun _ => id) fun answer j'' h'' _ => ?_
    exact Prog.wp_ofExcept_post h'' fun _ _ => trivial

theorem wp_approveCircleUsdc {settlement : JsString} {amount : ℕ} (h : Session A phase j)
    (hpay : k = .pay → phase.isAborting = false)
    (hreserved : k = .approve → ∃ r, j.reservation = some r) :
    (Circle.approveCircleUsdc H config (nameOf A k) settlement amount).wp purchases.spec
      (Prog.post (Session A phase) fun _ _ => True) j :=
  Prog.wp_ite (fun _ => wp_fail_bind h) fun _ => wp_executeCircle h hpay hreserved

end Executor

end Obolos
