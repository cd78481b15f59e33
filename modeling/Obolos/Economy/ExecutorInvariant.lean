import Obolos.Economy.ExecutorLive

/-!
# What the journals of purchases guarantee

An order is *open* from the submission of its approval until its payment or its abort has been
verified (`Open`).  `Journal.Inv` is the invariant of the two directories: every submission is
journalled and was made once, an order that is being aborted has no payment, an open order holds
the reservation, and nothing was approved or paid for another order meanwhile.
`Journal.Change` is what one effect can do to the phases of the orders.

Below them is one lemma for every kind of effect that changes the disk or the history, with the
condition under which the invariant survives it.
-/

namespace Obolos

namespace Executor

/-- The order is being aborted. -/
def Phase.isAborting : Phase → Bool
  | .aborting | .aborted => true
  | _ => false

/-- The payment of the order is known. -/
def Phase.isPaid : Phase → Bool
  | .paid | .delivered | .acknowledging | .completed => true
  | _ => false

/-- The approval of the order was submitted, and since then neither its payment nor its abort has
been verified. -/
def Open (A : Bytes32) (history : List Event) : Prop :=
  ∃ before after, history = before ++ .submitted (nameOf A .approve) :: after ∧
    .paymentVerified A ∉ after ∧ .abortVerified A ∉ after

theorem not_open_nil {A : Bytes32} : ¬ Open A [] := by
  rintro ⟨before, after, h, -⟩
  simp at h

/-- An event of a history with one more event at its end. -/
theorem append_eq {history before after : List Event} {e e' : Event}
    (h : history ++ [e] = before ++ e' :: after) :
    (before = history ∧ e' = e ∧ after = []) ∨
      ∃ rest, after = rest ++ [e] ∧ history = before ++ e' :: rest := by
  rcases List.eq_nil_or_concat after with rfl | ⟨rest, last, rfl⟩
  · obtain ⟨rfl, he⟩ := List.append_inj' h rfl
    exact Or.inl ⟨rfl, (List.singleton_inj.1 he).symm, rfl⟩
  · rw [List.concat_eq_append] at h ⊢
    rw [← List.cons_append, ← List.append_assoc] at h
    obtain ⟨rfl, he⟩ := List.append_inj' h rfl
    exact Or.inr ⟨rest, by rw [List.singleton_inj.1 he], rfl⟩

/-- What one more event does to an open order. -/
theorem open_append {A : Bytes32} {history : List Event} {e : Event} :
    Open A (history ++ [e]) ↔
      (Open A history ∧ e ≠ .paymentVerified A ∧ e ≠ .abortVerified A) ∨
        e = .submitted (nameOf A .approve) := by
  constructor
  · rintro ⟨before, after, h, hpaid, haborted⟩
    rcases append_eq h with ⟨-, he, -⟩ | ⟨rest, rfl, rfl⟩
    · exact Or.inr he.symm
    · simp only [List.mem_append, List.mem_singleton, not_or] at hpaid haborted
      exact Or.inl ⟨⟨before, rest, rfl, hpaid.1, haborted.1⟩, Ne.symm hpaid.2, Ne.symm haborted.2⟩
  · rintro (⟨⟨before, after, rfl, hpaid, haborted⟩, he, he'⟩ | rfl)
    · refine ⟨before, after ++ [e], by simp, ?_, ?_⟩
      · simp [hpaid, Ne.symm he]
      · simp [haborted, Ne.symm he']
    · exact ⟨history, [], rfl, by simp, by simp⟩

theorem Open.submitted {A : Bytes32} {history : List Event} (h : Open A history) :
    Event.submitted (nameOf A .approve) ∈ history := by
  obtain ⟨before, after, rfl, -⟩ := h
  simp

/-- An approval or a payment is only submitted while no other order is open. -/
def Separate (history : List Event) : Prop :=
  ∀ before after B k, history = before ++ .submitted (nameOf B k) :: after →
    (k = .approve ∨ k = .pay) → ∀ A, Open A before → A = B

namespace Journal

/-- The order is stored, in a phase with this property. -/
def InPhase (j : Journal) (A : Bytes32) (p : Phase → Bool) : Prop :=
  ∃ state, j.states A = some state ∧ p state.phase = true

/-- The invariant of the directories. -/
structure Inv (j : Journal) : Prop where
  own : ∀ A state, j.states A = some state → state.intent.orderId = A
  journalled : ∀ name, .submitted name ∈ j.history → (j.operations name).isSome
  once : ∀ name, j.history.count (.submitted name) ≤ 1
  unpaid : ∀ A, j.InPhase A Phase.isAborting → j.operations (nameOf A .pay) = none
  reserved : ∀ A, Open A j.history → ∃ r, j.reservation = some r ∧ r.orderId = A
  separate : Separate j.history

/-- What one effect can do. -/
structure Change (j j' : Journal) : Prop where
  history : ∃ new, j'.history = j.history ++ new ∧
    ∀ A, j.InPhase A Phase.isPaid → ∀ k, .reached A k ∉ new
  aborting : ∀ A, j.InPhase A Phase.isAborting → j'.InPhase A Phase.isAborting
  paid : ∀ A, j.InPhase A Phase.isPaid → j'.InPhase A Phase.isPaid

variable {j j' : Journal} {A : Bytes32}

theorem inv_empty : empty.Inv where
  own A state h := by cases h
  journalled name h := by cases h
  once name := by simp [empty]
  unpaid A h := by
    obtain ⟨state, h, -⟩ := h
    cases h
  reserved A h := absurd h not_open_nil
  separate before after B k h := by simp [empty] at h

theorem Change.refl (j : Journal) : Change j j :=
  ⟨⟨[], by simp, by simp⟩, fun _ h => h, fun _ h => h⟩

theorem Change.trans {j'' : Journal} (h : Change j j') (h' : Change j' j'') : Change j j'' := by
  obtain ⟨new, hnew, hreached⟩ := h.history
  obtain ⟨new', hnew', hreached'⟩ := h'.history
  refine ⟨⟨new ++ new', by rw [hnew', hnew, List.append_assoc], fun A hA k => ?_⟩,
    fun A hA => h'.aborting A (h.aborting A hA), fun A hA => h'.paid A (h.paid A hA)⟩
  rw [List.mem_append, not_or]
  exact ⟨hreached A hA k, hreached' A (h.paid A hA) k⟩

/-- A change of the operations, the reservation or the history only. -/
theorem Change.of_states (hstates : j'.states = j.states)
    (hnew : ∃ new, j'.history = j.history ++ new ∧
      ∀ A, j.InPhase A Phase.isPaid → ∀ k, .reached A k ∉ new) : Change j j' := by
  refine ⟨hnew, fun A => ?_, fun A => ?_⟩ <;> simp only [InPhase, hstates] <;> exact id

/-- What every effect of a purchase respects. -/
def Guar (j j' : Journal) : Prop := j'.Inv ∧ j.Change j'

theorem Inv.guar_refl (h : j.Inv) : j.Guar j := ⟨h, .refl j⟩

/-- An order whose approval is not even journalled is not open. -/
theorem Inv.not_open (h : j.Inv) (hop : j.operations (nameOf A .approve) = none) :
    ¬ Open A j.history := by
  intro hopen
  have hsome := h.journalled _ hopen.submitted
  rw [hop] at hsome
  cases hsome

/-- Saving the state of an order: aborting and paid orders stay so, and only an order without a
payment starts to be aborted. -/
theorem Inv.guar_setState {state : ExecutorState} (h : j.Inv) (hown : state.intent.orderId = A)
    (haborting : j.InPhase A Phase.isAborting → state.phase.isAborting = true)
    (hpaid : j.InPhase A Phase.isPaid → state.phase.isPaid = true)
    (hpay : state.phase.isAborting = true → j.operations (nameOf A .pay) = none) :
    j.Guar (j.setState A state) := by
  have hphase : ∀ (p : Phase → Bool) B, (j.setState A state).InPhase B p ↔
      if B = A then p state.phase = true else j.InPhase B p := by
    intro p B
    by_cases hB : B = A
    · subst hB
      simp [InPhase, setState]
    · simp [InPhase, setState, hB]
  refine ⟨⟨fun B s hs => ?_, h.journalled, h.once, fun B hB => ?_, h.reserved, h.separate⟩,
    ⟨[], by simp [setState], by simp⟩, fun B hB => ?_, fun B hB => ?_⟩
  · by_cases hB : B = A
    · subst hB
      obtain rfl : state = s := by simpa [setState] using hs
      exact hown
    · exact h.own B s (by simpa [setState, hB] using hs)
  · rw [hphase] at hB
    split_ifs at hB with he
    · rw [he]
      exact hpay hB
    · exact h.unpaid B hB
  · rw [hphase]
    split_ifs with he
    · exact haborting (he ▸ hB)
    · exact hB
  · rw [hphase]
    split_ifs with he
    · exact hpaid (he ▸ hB)
    · exact hB

/-- Saving or removing the reservation: every open order must still hold it. -/
theorem Inv.guar_setReservation {reservation : Option Reservation} (h : j.Inv)
    (hopen : ∀ A, Open A j.history → ∃ r, reservation = some r ∧ r.orderId = A) :
    j.Guar (j.setReservation reservation) :=
  ⟨⟨h.own, h.journalled, h.once, h.unpaid, hopen, h.separate⟩,
    .of_states rfl ⟨[], by simp [setReservation], by simp⟩⟩

/-- Saving the journal of an operation: no payment appears for an order that is being aborted. -/
theorem Inv.guar_setOperation {name : JsString} {operation : Circle.Operation} (h : j.Inv)
    (hpay : ∀ A, j.InPhase A Phase.isAborting → name ≠ nameOf A .pay) :
    j.Guar (j.setOperation name operation) := by
  refine ⟨⟨h.own, fun n hn => ?_, h.once, fun A hA => ?_, h.reserved, h.separate⟩,
    .of_states rfl ⟨[], by simp [setOperation], by simp⟩⟩
  · by_cases he : n = name
    · simp [setOperation, he]
    · simpa [setOperation, he] using h.journalled n hn
  · have hne := Ne.symm (hpay A hA)
    simpa [setOperation, hne] using h.unpaid A hA

/-- A payment that is journalled already is not that of an order that is being aborted. -/
theorem Inv.ne_pay {name : JsString} (h : j.Inv) (hop : (j.operations name).isSome)
    (hA : j.InPhase A Phase.isAborting) : name ≠ nameOf A .pay := by
  rintro rfl
  rw [h.unpaid A hA] at hop
  cases hop

/-- A first submission of a journalled operation. -/
theorem Inv.guar_submitted {name : JsString} (h : j.Inv) (hop : (j.operations name).isSome)
    (hfresh : .submitted name ∉ j.history)
    (hreserved : ∀ A, name = nameOf A .approve → ∃ r, j.reservation = some r ∧ r.orderId = A)
    (hseparate : ∀ B k, name = nameOf B k → k = .approve ∨ k = .pay →
      ∀ A, Open A j.history → A = B) :
    j.Guar (j.record (.submitted name)) := by
  refine ⟨⟨h.own, fun n hn => ?_, fun n => ?_, h.unpaid, fun A hA => ?_, ?_⟩,
    .of_states rfl ⟨[.submitted name], rfl, by simp⟩⟩
  · simp only [record, List.mem_append, List.mem_singleton, Event.submitted.injEq] at hn
    rcases hn with hn | rfl
    · exact h.journalled n hn
    · exact hop
  · by_cases hn : n = name
    · subst hn
      simp [record, List.count_eq_zero.2 hfresh]
    · have hn' : ¬ name = n := fun he => hn he.symm
      simpa [record, List.count_singleton, hn'] using h.once n
  · rcases open_append.1 hA with ⟨hA, -⟩ | he
    · exact h.reserved A hA
    · exact hreserved A (by simpa using he)
  · intro before after B k hsplit hk A hA
    rcases append_eq hsplit with ⟨rfl, he, -⟩ | ⟨rest, -, hsplit⟩
    · exact hseparate B k (by simpa using he.symm) hk A hA
    · exact h.separate before rest B k hsplit hk A hA

/-- Any other event, if it is not one that a paid order must not reach. -/
theorem Inv.guar_record {e : Event} (h : j.Inv) (he : ∀ name, e ≠ .submitted name)
    (hreached : ∀ A k, e = .reached A k → ¬ j.InPhase A Phase.isPaid) : j.Guar (j.record e) := by
  have hmem : ∀ name, .submitted name ∈ (j.record e).history ↔ .submitted name ∈ j.history := by
    intro name
    simp [record, Ne.symm (he name)]
  refine ⟨⟨h.own, fun n hn => h.journalled n ((hmem n).1 hn), fun n => ?_, h.unpaid,
    fun A hA => ?_, ?_⟩, .of_states rfl ⟨[e], rfl, fun A hA k hk => ?_⟩⟩
  · have hne : ¬ e = .submitted n := he n
    simpa [record, List.count_singleton, hne] using h.once n
  · rcases open_append.1 hA with ⟨hA, -⟩ | hs
    · exact h.reserved A hA
    · exact absurd hs (he _)
  · intro before after B k hsplit hk A hA
    rcases append_eq hsplit with ⟨-, hs, -⟩ | ⟨rest, -, hsplit⟩
    · exact absurd hs.symm (he _)
    · exact h.separate before rest B k hsplit hk A hA
  · rw [List.mem_singleton] at hk
    exact hreached A k hk.symm hA

end Journal

/-- What purchases are verified against. -/
def purchases : Exclusive Journal Effect Answer JsError where
  work := work
  inv := Journal.Inv
  guar := Journal.Guar
  inv_of_guar _ _ _ h := h.1

end Executor

end Obolos
