import Obolos.Economy.ExecutorInvariant

/-!
# What the Circle operations of an order change

One specification for every function of `economy-circle.ts` and `executor-live.ts`, from the
point of view of the process that owns the lock file.  Reading and reconciling keep all that the
invariant speaks of (`Journal.Kept`).  Submitting an operation keeps the process in the middle of
its order (`Session`), under the conditions of `MaySubmit`.
-/

namespace Obolos

namespace Executor

open Obolos.Circle (withOperationLock)

variable {H : Host} {config : Circle.CircleConfig} {deployment : Deployment}
  {intent : ExecutorInput} {state : ExecutorState} {kind : ExecutorAction} {A : Bytes32}
  {phase : Phase} {name : JsString} {α : Type} {j : Journal} {I : Journal → Prop}
  {P : α → Journal → Prop}

/-! ### Single effects -/

/-- The rule of one effect of a purchase. -/
theorem wp_perform {o : Effect} {Q : Except JsError (Answer o) → Journal → Prop}
    (h : ∀ r j', work j o r j' → j.Guar j' ∧ Q r j') : (perform o).wp purchases.spec Q j :=
  Exclusive.wp_await h

/-- An effect that changes nothing. -/
theorem wp_quiet {o : Effect} {P : Answer o → Journal → Prop} (hj : j.Inv)
    (ho : ∀ r j', work j o r j' → j' = j) (hI : I j) (hP : ∀ a, work j o (.ok a) j → P a j) :
    (perform o).wp purchases.spec (Prog.post I P) j := by
  refine wp_perform fun r j' h => ?_
  obtain rfl := ho r j' h
  refine ⟨hj.guar_refl, ?_⟩
  cases r with
  | ok a => exact ⟨hI, hP a h⟩
  | error e => exact hI

/-- A change of the disk. -/
theorem wp_write {o : Effect} {changed : Journal} {P : Answer o → Journal → Prop} (hj : j.Inv)
    (ho : ∀ r j', work j o r j' → (j' = j ∧ ∀ a, r ≠ .ok a) ∨ j' = changed)
    (hg : j.Guar changed) (hI : I j) (hI' : I changed) (hP : ∀ a, P a changed) :
    (perform o).wp purchases.spec (Prog.post I P) j := by
  refine wp_perform fun r j' h => ?_
  rcases ho r j' h with ⟨rfl, hr⟩ | rfl
  · refine ⟨hj.guar_refl, ?_⟩
    cases r with
    | ok a => exact absurd rfl (hr a)
    | error e => exact hI
  · refine ⟨hg, ?_⟩
    cases r with
    | ok a => exact ⟨hI', hP a⟩
    | error e => exact hI'

theorem write_cases {j changed j' : Journal} {r : Except JsError Unit} (h : write j changed r j') :
    (j' = j ∧ ∀ a, r ≠ .ok a) ∨ j' = changed := by
  cases r with
  | ok a => exact Or.inr h
  | error e =>
    rcases h with rfl | rfl
    · exact Or.inl ⟨rfl, fun a h => by cases h⟩
    · exact Or.inr rfl

theorem wp_fail {message : String} (h : I j) :
    (Circle.fail message : Exec α).wp purchases.spec (Prog.post I P) j := Prog.wp_throw.2 h

/-- What follows an exception is skipped. -/
theorem wp_fail_bind {β : Type} {message : String} {f : β → Exec α} (h : I j) :
    ((Circle.fail message : Exec β) >>= f).wp purchases.spec (Prog.post I P) j :=
  Prog.wp_bind.2 (Prog.wp_throw.2 h)

theorem wp_return {a : α} (hI : I j) (hP : P a j) :
    (pure a : Exec α).wp purchases.spec (Prog.post I P) j := Prog.wp_pure.2 ⟨hI, hP⟩

/-- Work behind the lock file of an operation. -/
theorem wp_withOperationLock {message : String} {body : Exec α} (hj : j.Inv)
    (hinv : ∀ j, I j → j.Inv) (hI : I j)
    (hbody : body.wp purchases.spec (Prog.post I P) j) :
    (withOperationLock message name body).wp purchases.spec (Prog.post I P) j := by
  refine Prog.wp_seq (I := (· = j)) (P := fun _ _ => True)
    (Prog.wp_ofExcept_post rfl fun _ _ => trivial) (by rintro _ rfl; exact hI) ?_
  rintro - j rfl -
  refine Prog.wp_seq (I := I) (P := fun _ j' => j' = j)
    (wp_quiet hj (fun _ _ h => h) hI fun _ _ => rfl) (fun _ => id) ?_
  rintro - j - rfl
  refine Prog.wp_seq (I := I) (P := fun _ j' => j' = j)
    (Prog.wp_catch (I := (· = j)) (P := fun _ _ => True)
      (wp_quiet hj (fun _ _ h => h) rfl fun _ _ => trivial) ?_ ?_) (fun _ => id) ?_
  · rintro _ _ rfl -
    exact ⟨hI, rfl⟩
  · rintro _ _ rfl
    exact wp_fail hI
  rintro - j - rfl
  -- the lock file is removed whatever the outcome was
  rw [Prog.wp_finally]
  refine Prog.wp_mono hbody fun r j' hr => ?_
  have hI' : I j' := by
    cases r with
    | ok a => exact hr.1
    | error e => exact hr
  have hkeep : ∀ r' : Except JsError Unit, Prog.finallyPost (Prog.post I P) r r' j' := by
    intro r'
    cases r' with
    | ok _ => exact hr
    | error e => exact hI'
  rw [Prog.wp_bind]
  refine wp_perform fun r' j'' h => ?_
  obtain rfl : j'' = j' := h
  refine ⟨(hinv _ hI').guar_refl, ?_⟩
  cases r' with
  | error e => exact hkeep (.error e)
  | ok u =>
    refine wp_perform fun r'' j''' h => ?_
    obtain rfl : j''' = j'' := h
    exact ⟨(hinv _ hI').guar_refl, hkeep r''⟩

/-! ### Reading and reconciling -/

/-- What reading and reconciling leave as it was. -/
structure Journal.Kept (j j' : Journal) : Prop where
  inv : j'.Inv
  states : j'.states = j.states
  reservation : j'.reservation = j.reservation
  history : j'.history = j.history
  operations : ∀ name, (j'.operations name).isSome = (j.operations name).isSome

theorem Journal.Inv.kept (h : j.Inv) : j.Kept j := ⟨h, rfl, rfl, rfl, fun _ => rfl⟩

theorem Journal.Kept.trans {j' j'' : Journal} (h : j.Kept j') (h' : j'.Kept j'') : j.Kept j'' :=
  ⟨h'.inv, h'.states.trans h.states, h'.reservation.trans h.reservation,
    h'.history.trans h.history, fun n => (h'.operations n).trans (h.operations n)⟩

/-- Updating the journal of an operation that has one. -/
theorem Journal.Kept.setOperation {j' : Journal} {operation : Circle.Operation} (h : j.Kept j')
    (hop : (j'.operations name).isSome) : j.Kept (j'.setOperation name operation) := by
  refine ⟨(h.inv.guar_setOperation fun A hA => h.inv.ne_pay hop hA).1, h.states, h.reservation,
    h.history, fun n => ?_⟩
  by_cases hn : n = name
  · subst hn
    rw [← h.operations n, hop]
    simp [Journal.setOperation]
  · rw [← h.operations n]
    simp [Journal.setOperation, hn]

/-- Updating the journal of an operation that has one is allowed. -/
theorem wp_saveOperation {operation : Circle.Operation} {j' : Journal} (h : j.Kept j')
    (hop : (j'.operations name).isSome) :
    (perform (.saveOperation name operation)).wp purchases.spec
      (Prog.post (fun j'' => j.Kept j'' ∧ (j''.operations name).isSome) fun _ _ => True) j' := by
  have hset : j.Kept (j'.setOperation name operation) := h.setOperation hop
  refine wp_write h.inv (fun _ _ => write_cases)
    (h.inv.guar_setOperation fun A hA => h.inv.ne_pay hop hA) ⟨h, hop⟩ ⟨hset, ?_⟩
    fun _ => trivial
  rw [hset.operations, ← h.operations, hop]

/-- `hasOperation` tells whether the operation has a journal. -/
theorem wp_hasOperation (hj : j.Inv) :
    (hasOperation intent state kind).wp purchases.spec (Prog.post (· = j)
      fun b _ => b = (j.operations (state.operationName kind)).isSome) j := by
  unfold hasOperation withExecutorOperationLock
  refine wp_withOperationLock (I := (· = j)) hj (by rintro _ rfl; exact hj) rfl ?_
  refine Prog.wp_seq (I := (· = j))
    (P := fun op _ => op = j.operations (state.operationName kind))
    (wp_quiet hj ?_ rfl fun _ h => h.1) (fun _ => id) ?_
  · rintro (e | op) j' h
    · exact h
    · exact h.2
  rintro op j rfl hop
  cases op with
  | none =>
    refine Prog.wp_seq (I := (· = j)) (P := fun _ _ => True)
      (wp_quiet hj (fun _ _ h => h) rfl fun _ _ => trivial) (fun _ => id) ?_
    rintro - j rfl -
    exact wp_return rfl (by rw [← hop]; rfl)
  | some op =>
    have hresult : true = (j.operations (state.operationName kind)).isSome := by rw [← hop]; rfl
    exact Prog.wp_ite (fun _ => wp_fail_bind rfl) fun _ => wp_return rfl hresult

/-! ### Programs that leave the journals alone -/

/-- The program changes nothing on disk and is no event. -/
def Silent (p : Exec α) : Prop :=
  ∀ j : Journal, j.Inv → p.wp purchases.spec (Prog.post (· = j) fun _ _ => True) j

theorem Silent.wp {p : Exec α} (h : Silent p) (hj : j.Inv) (hI : I j) :
    p.wp purchases.spec (Prog.post I fun _ j' => j' = j) j :=
  Prog.wp_mono (h j hj) fun r j' hr => by
    cases r with
    | ok a =>
      obtain ⟨rfl, -⟩ := hr
      exact ⟨hI, rfl⟩
    | error e =>
      obtain rfl : j' = j := hr
      exact hI

theorem silent_perform {o : Effect} (ho : ∀ j r j', work j o r j' → j' = j) :
    Silent (perform o) :=
  fun j hj => wp_quiet hj (ho j) rfl fun _ _ => trivial

theorem wp_silent {o : Effect} (ho : ∀ j r j', work j o r j' → j' = j) (hj : j.Inv) (hI : I j) :
    (perform o).wp purchases.spec (Prog.post I fun _ j' => j' = j) j :=
  (silent_perform ho).wp hj hI

theorem silent_fail {message : String} : Silent (Circle.fail message : Exec α) :=
  fun _ _ => wp_fail rfl

theorem silent_throw {e : JsError} : Silent (throw e : Exec α) :=
  fun _ _ => Prog.wp_throw.2 rfl

theorem silent_return {a : α} : Silent (pure a : Exec α) := fun _ _ => wp_return rfl trivial

theorem silent_ofExcept {x : Except JsError α} : Silent (Prog.ofExcept x : Exec α) :=
  fun _ _ => Prog.wp_ofExcept_post rfl fun _ _ => trivial

theorem Silent.bind {β : Type} {p : Exec α} {f : α → Exec β} (hp : Silent p)
    (hf : ∀ a, Silent (f a)) : Silent (p >>= f) := fun j hj =>
  Prog.wp_seq (hp j hj) (fun _ => id) fun a j' h _ => by
    obtain rfl : j' = j := h
    exact hf a j' hj

theorem Silent.map {β : Type} {p : Exec α} {f : α → β} (hp : Silent p) : Silent (f <$> p) :=
  hp.bind fun _ => silent_return

theorem Silent.ite {c : Prop} [Decidable c] {p q : Exec α} (hp : Silent p) (hq : Silent q) :
    Silent (if c then p else q) := fun j hj => Prog.wp_ite (fun _ => hp j hj) fun _ => hq j hj

theorem silent_assertTestnet : Silent Circle.assertTestnet :=
  Silent.bind (silent_perform fun _ _ _ h => h) fun _ => .ite silent_fail silent_return

theorem silent_detail {id : JsString} : Silent (Circle.detail H config id) := by
  refine Silent.bind (silent_perform fun _ _ _ h => h) fun data => ?_
  split
  · exact silent_throw
  · exact silent_ofExcept.bind fun record => .ite (silent_fail.bind fun _ => silent_return)
      silent_return
  · exact silent_fail

theorem silent_searchPages {op : Circle.Operation} (pages : ℕ) (cursor : JsString) :
    Silent (Circle.searchPages config op pages cursor) := by
  induction pages generalizing cursor with
  | zero => exact silent_return
  | succ pages ih =>
    refine Silent.bind (silent_perform fun _ _ _ h => h) fun data => ?_
    split
    · exact silent_fail
    · refine silent_ofExcept.bind fun found => ?_
      split
      · exact silent_return
      · split
        · exact silent_return
        · refine .ite silent_return (silent_ofExcept.bind fun tx => ?_)
          split
          · exact ih _
          · exact silent_return

theorem silent_lookUp {op : Circle.Operation} : Silent (Circle.lookUp H config op) := by
  unfold Circle.lookUp
  split
  · exact silent_detail.map
  · exact silent_searchPages 20 []

theorem silent_receipt {op : Circle.Operation} : Silent (Circle.receipt H config op) :=
  silent_ofExcept.bind fun _ => Silent.bind (silent_perform fun _ _ _ h => h) fun _ =>
    .ite silent_fail silent_return

/-! ### Reconciling -/

/-- A reconciled operation keeps its journal. -/
theorem wp_findOnchain {op : Circle.Operation} {j' : Journal} (h : j.Kept j')
    (hop : (j'.operations name).isSome) :
    (Circle.findOnchain H config name op).wp purchases.spec
      (Prog.post j.Kept fun _ _ => True) j' := by
  unfold Circle.findOnchain
  split
  · refine Prog.wp_ite (fun _ => wp_fail_bind h) fun _ => ?_
    refine Prog.wp_seq (wp_silent (fun _ _ _ h => h) h.inv h) (fun _ => id) ?_
    rintro found j' - rfl
    cases found with
    | none => exact wp_return h trivial
    | some hash =>
      refine Prog.wp_seq (wp_saveOperation h hop) (fun _ h => h.1) fun _ _ h' _ => ?_
      exact wp_return h'.1 trivial
  · exact wp_return h trivial

theorem wp_confirm {op : Circle.Operation} {j' : Journal} (h : j.Kept j')
    (hop : (j'.operations name).isSome) :
    (Circle.confirm H config name op).wp purchases.spec
      (Prog.post j.Kept fun _ _ => True) j' := by
  refine Prog.wp_seq (wp_findOnchain h hop) (fun _ => id) fun op j' h _ => ?_
  refine Prog.wp_seq (silent_ofExcept.wp h.inv h) (fun _ => id) ?_
  rintro - j' - rfl
  refine Prog.wp_seq (silent_receipt.wp h.inv h) (fun _ => id) ?_
  rintro - j' - rfl
  exact wp_return h trivial

/-- Reconciling an operation submits nothing and starts no operation. -/
theorem wp_reconcile (hj : j.Inv) :
    (Circle.reconcile H config name).wp purchases.spec (Prog.post j.Kept fun _ _ => True) j := by
  refine Prog.wp_seq (silent_ofExcept.wp hj hj.kept) (fun _ => id) ?_
  rintro - j - rfl
  refine Prog.wp_seq (silent_assertTestnet.wp hj hj.kept) (fun _ => id) ?_
  rintro - j - rfl
  refine Prog.wp_seq (I := (· = j)) (P := fun op _ => op = j.operations name)
    (wp_quiet hj ?_ rfl fun _ h => h.1) (by rintro _ rfl; exact hj.kept) ?_
  · rintro (e | op) j' h
    · exact h
    · exact h.2
  rintro op j rfl hop
  cases op with
  | none => exact wp_fail hj.kept
  | some op =>
    have hsome : (j.operations name).isSome := by rw [← hop]; rfl
    refine Prog.wp_ite (fun _ => wp_return hj.kept trivial) fun _ => ?_
    refine Prog.wp_seq (silent_lookUp.wp hj hj.kept) (fun _ => id) ?_
    rintro tx j - rfl
    cases tx with
    | none => exact wp_confirm hj.kept hsome
    | some tx =>
      refine Prog.wp_seq (silent_ofExcept.wp hj hj.kept) (fun _ => id) ?_
      rintro op j - rfl
      refine Prog.wp_seq (wp_saveOperation hj.kept hsome) (fun _ h => h.1) fun _ j' h' _ => ?_
      exact Prog.wp_ite (fun _ => wp_return h'.1 trivial) fun _ => wp_confirm h'.1 h'.2

theorem wp_reconcileLocked (hj : j.Inv) :
    (reconcileLocked H config state kind).wp purchases.spec
      (Prog.post j.Kept fun _ _ => True) j := by
  unfold reconcileLocked withExecutorOperationLock
  exact wp_withOperationLock hj (fun _ h => h.inv) hj.kept (wp_reconcile hj)

theorem wp_circleReceipt {op : Circle.Operation} (hj : j.Inv) :
    (circleReceipt H config op state kind).wp purchases.spec
      (Prog.post j.Kept fun _ _ => True) j := by
  unfold circleReceipt
  refine Prog.wp_seq (I := j.Kept) (P := fun _ _ => True)
    (Prog.wp_ite (fun _ => wp_return hj.kept trivial) fun _ => wp_reconcileLocked hj)
    (fun _ => id) fun op j' h _ => ?_
  split
  · exact wp_fail h
  · refine Prog.wp_seq (wp_silent (fun _ _ _ h => h) h.inv h) (fun _ => id) ?_
    rintro - j' - rfl
    exact wp_return h trivial

theorem wp_recover (hj : j.Inv) :
    (recover H config state kind).wp purchases.spec (Prog.post j.Kept fun _ _ => True) j := by
  unfold recover
  refine Prog.wp_seq (wp_reconcileLocked hj) (fun _ => id) fun op j' h _ => ?_
  exact Prog.wp_post_mono (wp_circleReceipt h.inv) (fun _ => h.trans) fun _ _ _ _ => trivial

end Executor

end Obolos
